/-
Announced lengths are true, whatever has been done to a lexer.

# What a step leaves

A text is consumed from its front: a step takes the first lexeme off it,
be that a token or a failed one, or the lexemes up to the first one that
fails, or a character, or nothing (`Session.Step.leaves`). Nothing in that
speaks of lookahead. A stream has a text ahead (`CharStream.Ahead`) when
that is what it has still to read, the character of lookahead in front,
and every operation leaves the text ahead that its step leaves of it.

# What is announced

The stream adds the character of lookahead to what its tracker announces,
which is what the source announces, and each layer counts what the others
do not. Over a string the sum is the length of the text ahead
(`CharStream.lengthHint_of_ahead`). A text that is not empty has a first
lexeme, so a length of nothing means that there are no more tokens, and
that does not change.
-/
import TexMath.Proofs.Laziness

namespace TexMath

-- ============================================================== text behind

namespace Lexeme

variable {c : Char} {rest text : List Char}

/-- The text behind the first lexeme. -/
def behindFirst (text : List Char) : List Char :=
  ((split text).tail.map Lexeme.text).flatten

/-- The text behind the first lexeme that reads as a fault, and none where
every lexeme reads as a token. -/
def behindFault (text : List Char) : List Char :=
  (((split text).dropWhile (·.reading.isOk)).tail.map Lexeme.text).flatten

theorem behindFirst_nil : behindFirst [] = [] := by
  rw [behindFirst, split]
  rfl

theorem behindFirst_cons (c : Char) (rest : List Char) :
    behindFirst (c :: rest) = (first c rest).2 := by
  rw [behindFirst, split]
  exact flatten_split _

theorem behindFault_nil : behindFault [] = [] := by
  rw [behindFault, split]
  rfl

theorem behindFault_of_ok (h : (first c rest).1.reading.isOk = true) :
    behindFault (c :: rest) = behindFault (first c rest).2 := by
  simp only [behindFault, split, List.dropWhile_cons, h, if_true]

theorem behindFault_of_error {fault : Fault} (h : (first c rest).1.reading = .error fault) :
    behindFault (c :: rest) = (first c rest).2 := by
  have hstop : (first c rest).1.reading.isOk = false := by
    rw [h]
    rfl
  rw [behindFault, split, List.dropWhile_cons, hstop]
  exact flatten_split _

theorem flatten_suffix {lexemes : List Lexeme} (h : lexemes <:+ split text) :
    (lexemes.map Lexeme.text).flatten <:+ text := by
  obtain ⟨front, hfront⟩ := h
  refine ⟨(front.map Lexeme.text).flatten, ?_⟩
  rw [← List.flatten_append, ← List.map_append, hfront, flatten_split]

end Lexeme

open Lexeme (behindFirst behindFault)

-- =========================================================== streams with a text

namespace CharStream

variable {s : CharStream} {c : Char} {rest text : List Char}

/-- The text is what the stream has still to read. -/
structure Ahead (s : CharStream) (text : List Char) : Prop where
  coherent : s.Coherent
  unread : ∃ position, s.unread = ⟨text.map .char, position⟩

theorem ahead_ofSource (text : List Char) : (ofSource (.ofList text)).Ahead text :=
  ⟨coherent_ofSource _, .origin, rfl⟩

theorem Follows.ahead {α : Type} {a : Attempt CharStream α} {r : Attempt Unread α}
    {position : Span} (h : Follows a r) (hr : r.2 = ⟨text.map .char, position⟩) : a.2.Ahead text :=
  ⟨h.coherent, position, h.unread.trans hr⟩

theorem Ahead.peek (h : s.Ahead text) : s.peek.2.Ahead text := by
  obtain ⟨position, hunread⟩ := h.unread
  have hpeek := peek_follows h.coherent
  rw [hunread] at hpeek
  cases text with
  | nil => exact hpeek.ahead rfl
  | cons c rest => exact hpeek.ahead rfl

theorem Ahead.advance (h : s.Ahead text) : s.advance.2.Ahead text.tail := by
  obtain ⟨position, hunread⟩ := h.unread
  have hadvance := advance_follows h.coherent
  rw [hunread] at hadvance
  cases text with
  | nil => exact hadvance.ahead rfl
  | cons c rest => exact hadvance.ahead rfl

/-- A peek shows the first character of the text ahead. -/
theorem Ahead.shown (h : s.Ahead text) : s.peek.1.map (Option.map (·.val)) = .ok text.head? := by
  obtain ⟨position, hunread⟩ := h.unread
  have hpeek := (peek_follows h.coherent).answer
  rw [hunread] at hpeek
  rw [hpeek]
  cases text <;> rfl

/-- A test that accepts no character leaves what a peek leaves. -/
theorem advanceWhen_of_refused {test : Char → Except Fault Bool}
    (h : ∀ c, (s.advanceWhen test).1 ≠ .ok (some c)) : (s.advanceWhen test).2 = s.peek.2 := by
  unfold advanceWhen at h ⊢
  rcases hpeek : s.peek with ⟨fault | (_ | c), t⟩
  · rfl
  · rfl
  · rw [hpeek] at h
    cases htest : test c.val with
    | error fault => simp only [htest]
    | ok accepted =>
      cases accepted with
      | false => simp only [htest]
      | true =>
        simp only [htest] at h
        exact absurd rfl (h c)

/-- What a step leaves of the text in front of it. Only what is handed out
comes off: not what a peek shows, and not what a test refuses or fails
on. -/
def Step.leaves : Step → List Char → List Char
  | .peek, text => text
  | .advance, text => text.tail
  | .advanceIf test, text =>
    if text.head?.any fun c => (test c).toOption == some true then text.tail else text

theorem Step.leaves_advanceIf (test : Char → Except Fault Bool) (text : List Char) :
    (advanceIf test).leaves text
      = if text.head?.any fun c => (test c).toOption == some true then text.tail else text := rfl

theorem Step.leaves_suffix (x : Step) (text : List Char) : x.leaves text <:+ text := by
  cases x with
  | peek => exact List.suffix_rfl
  | advance => exact List.tail_suffix text
  | advanceIf test =>
    rw [leaves_advanceIf]
    split
    · exact List.tail_suffix text
    · exact List.suffix_rfl

theorem Ahead.advanceWhen (test : Char → Except Fault Bool) (h : s.Ahead text) :
    (s.advanceWhen test).2.Ahead ((Step.advanceIf test).leaves text) := by
  have hshown := h.shown
  have hpeek := h.peek
  have hadvance : s.peek.2.release.Ahead text.tail := h.advance
  rw [Step.leaves_advanceIf]
  unfold CharStream.advanceWhen
  generalize s.peek = r at hshown hpeek hadvance ⊢
  obtain ⟨fault | (_ | c), t⟩ := r
  · cases hshown
  · rw [← Except.ok.inj hshown]
    exact hpeek
  · rw [← Except.ok.inj hshown, Option.map_some, Option.any_some]
    dsimp only
    cases test c.val with
    | error fault => exact hpeek
    | ok accepted =>
      cases accepted with
      | false => exact hpeek
      | true => exact hadvance

theorem Ahead.step (x : Step) (h : s.Ahead text) : (s.step x).2.Ahead (x.leaves text) := by
  cases x with
  | peek => exact h.peek
  | advance => exact h.advance
  | advanceIf test => exact h.advanceWhen test

-- ============================================================ announced lengths

theorem hint_step (s : CharStream) (x : Step) : (s.step x).2.source.hint = s.source.hint := by
  have hpeek : s.peek.2.source.hint = s.source.hint := by
    obtain ⟨⟨⟨events, hint, pulled⟩, position⟩, lookahead⟩ := s
    cases lookahead with
    | held c => rfl
    | ended => rfl
    | empty =>
      cases events with
      | nil => rfl
      | cons e rest => cases e <;> rfl
  rcases s.step_eq_peek_or x with hx | hx
  · rw [hx, hpeek]
  · rw [hx]
    exact hpeek

/-- Over a text the stream announces the length of what it has still to
read, wherever the next character is. -/
theorem lengthHint_of_ahead {code : List Char} (hs : (ofSource (.ofList code)).Reaches s)
    (h : s.Ahead text) : s.lengthHint = .ok text.length := by
  have hhint : s.source.hint = .exact :=
    hs.keeps (P := fun t => t.source.hint = .exact) (fun t x ht => (hint_step t x).trans ht) rfl
  obtain ⟨taken, left, -, hleft, -, hlength⟩ := left_of_reaches hs
  obtain ⟨position, hunread⟩ := h.unread
  have hremaining : s.source.remaining = left := by
    unfold Source.remaining
    rw [hleft]
    exact Event.handed_text left
  rw [hunread, List.length_map] at hlength
  unfold lengthHint Source.lengthHint
  rw [hhint, hlength, hremaining]

end CharStream

-- ============================================================ lexers with a text

namespace Lexer

variable {lexer later : Lexer} {c : Char} {rest text : List Char}

theorem nextToken_of_nil (h : lexer.chars.Ahead []) :
    lexer.nextToken.1 = .ok none ∧ lexer.nextToken.2.chars.Ahead [] := by
  obtain ⟨position, hunread⟩ := h.unread
  obtain ⟨htoken, hcoherent⟩ := token_unread h.coherent
  rw [hunread] at htoken
  obtain ⟨hanswer, hleft⟩ := Prod.mk.inj htoken
  exact ⟨hanswer.symm, hcoherent, position, hleft.symm⟩

/-- A call takes the first lexeme off the text, whether it reads as a token
or not. -/
theorem nextToken_of_cons (h : lexer.chars.Ahead (c :: rest)) :
    (∃ position : Span, lexer.nextToken.1
        = ((Lexeme.first c rest).1.reading.map (⟨·, position⟩)).map some)
      ∧ lexer.nextToken.2.chars.Ahead (Lexeme.first c rest).2 := by
  obtain ⟨position, hunread⟩ := h.unread
  obtain ⟨htoken, hcoherent⟩ := token_unread h.coherent
  have hlexeme := Unread.token_of_lexeme c rest [] position rfl (.inr (.inr rfl))
  rw [List.append_nil, List.append_nil, ← hunread, htoken] at hlexeme
  obtain ⟨hanswer, hleft⟩ := Prod.mk.inj hlexeme
  exact ⟨⟨position, hanswer⟩, hcoherent, _, hleft⟩

theorem ahead_nextToken (h : lexer.chars.Ahead text) :
    lexer.nextToken.2.chars.Ahead (behindFirst text) := by
  cases text with
  | nil =>
    rw [Lexeme.behindFirst_nil]
    exact (nextToken_of_nil h).2
  | cons c rest =>
    rw [Lexeme.behindFirst_cons]
    exact (nextToken_of_cons h).2

/-- A call finds the end where no text is left, and only there. -/
theorem nextToken_eq_none_iff (h : lexer.chars.Ahead text) :
    lexer.nextToken.1 = .ok none ↔ text = [] := by
  cases text with
  | nil => exact iff_of_true (nextToken_of_nil h).1 rfl
  | cons c rest =>
    obtain ⟨⟨position, hanswer⟩, -⟩ := nextToken_of_cons h
    refine iff_of_false (fun hnone => ?_) (List.cons_ne_nil c rest)
    rw [hanswer] at hnone
    generalize (Lexeme.first c rest).1.reading = reading at hnone
    cases reading <;> cases hnone

/-- A call that gives a token, or fails, has read the first lexeme. -/
theorem first_of_outcome (outcome : Except Fault (Located Token)) (h : lexer.chars.Ahead text)
    (call : lexer.nextToken = (outcome.map some, later)) :
    ∃ c rest, text = c :: rest ∧ (Lexeme.first c rest).1.reading = outcome.map (·.val)
      ∧ later.chars.Ahead (Lexeme.first c rest).2 := by
  have hsome : lexer.nextToken.1 ≠ .ok none := by
    rw [call]
    cases outcome <;> exact nofun
  obtain ⟨c, rest, rfl⟩ := List.exists_cons_of_ne_nil (mt (nextToken_eq_none_iff h).2 hsome)
  obtain ⟨⟨position, hanswer⟩, hlater⟩ := nextToken_of_cons h
  rw [call] at hanswer hlater
  refine ⟨c, rest, rfl, ?_, hlater⟩
  generalize (Lexeme.first c rest).1.reading = reading at hanswer ⊢
  cases outcome <;> cases reading <;> cases hanswer <;> rfl

/-- Taking all tokens takes the lexemes up to the first one that fails. -/
theorem ahead_collect (found : List (Located Token)) (h : lexer.chars.Ahead text) :
    (lexer.collect found).2.chars.Ahead (behindFault text) := by
  fun_induction collect found lexer generalizing text with
  | case1 found lexer token later call ih =>
    obtain ⟨c, rest, rfl, hreading, hlater⟩ := first_of_outcome (.ok token) h call
    rw [Lexeme.behindFault_of_ok (by rw [hreading]; rfl)]
    exact ih hlater
  | case2 found lexer later call =>
    obtain rfl := (nextToken_eq_none_iff h).1 (by rw [call])
    have hlater := (nextToken_of_nil h).2
    rw [call] at hlater
    rw [Lexeme.behindFault_nil]
    exact hlater
  | case3 found lexer fault later call =>
    obtain ⟨c, rest, rfl, hreading, hlater⟩ := first_of_outcome (.error fault) h call
    rw [Lexeme.behindFault_of_error hreading]
    exact hlater

end Lexer

-- ================================================================== sessions

namespace Session

variable {ε : Type} {s : Session ε} {x : Step} {text : List Char}

/-- What a step leaves of the text in front of it. Putting a new lexer over
the source is none of these steps. -/
def Step.leaves : Step → List Char → List Char
  | .token, text | .expanded, text => behindFirst text
  | .tokens, text | .expandedTokens, text => behindFault text
  | .chars x, text => x.leaves text
  | .hint, text | .charHint, text | .restart, text => text

theorem leaves_suffix (x : Step) (text : List Char) : x.leaves text <:+ text := by
  cases x with
  | token => exact Lexeme.flatten_suffix (List.tail_suffix _)
  | expanded => exact Lexeme.flatten_suffix (List.tail_suffix _)
  | tokens =>
    exact Lexeme.flatten_suffix ((List.tail_suffix _).trans (List.dropWhile_suffix _))
  | expandedTokens =>
    exact Lexeme.flatten_suffix ((List.tail_suffix _).trans (List.dropWhile_suffix _))
  | chars x => exact x.leaves_suffix text
  | hint => exact List.suffix_rfl
  | charHint => exact List.suffix_rfl
  | restart => exact List.suffix_rfl

/-- Every step leaves the text ahead that it leaves of the one in front of
it. -/
theorem ahead_step (hx : x ≠ .restart) (h : s.lexer.chars.Ahead text) :
    (s.step x).2.lexer.chars.Ahead (x.leaves text) := by
  have htoken : (s.step .token).2.lexer.chars.Ahead (behindFirst text) := Lexer.ahead_nextToken h
  have htokens : (s.step .tokens).2.lexer.chars.Ahead (behindFault text) := Lexer.ahead_collect [] h
  cases x with
  | token => exact htoken
  | expanded => exact htoken
  | tokens => exact htokens
  | expandedTokens =>
    show (s.expander.collect []).2.lexer.chars.Ahead _
    rw [Expander.collect_eq]
    exact htokens
  | restart => exact absurd rfl hx
  | chars x => exact h.step x
  | hint => exact h
  | charHint => exact h

/-- What steps in order leave of the text in front of them. -/
def leaves (steps : List Step) (text : List Char) : List Char :=
  steps.foldl (fun text x => x.leaves text) text

theorem ahead_run {steps : List Step} (hsteps : .restart ∉ steps) (h : s.lexer.chars.Ahead text) :
    (s.run steps).2.lexer.chars.Ahead (leaves steps text) := by
  induction steps generalizing s text with
  | nil => exact h
  | cons x steps ih =>
    have hx : x ≠ .restart := fun hx => hsteps (hx ▸ List.mem_cons_self)
    exact ih (fun hmem => hsteps (List.mem_cons_of_mem x hmem)) (ahead_step hx h)

theorem leaves_run_suffix (steps : List Step) (text : List Char) : leaves steps text <:+ text := by
  induction steps generalizing text with
  | nil => exact List.suffix_rfl
  | cons x steps ih => exact (ih (x.leaves text)).trans (leaves_suffix x text)

/-- Whatever consumers do to one lexer over a string, their steps consume
the string from its front, and the stream announces the length of what
they leave, whether a character of it is held or not. The lexer announces
nothing exactly when every later call for a token finds the end, whatever
is done in between, and otherwise one token, and then the next call does
not find the end. A call that gives a token, or fails, lowers the length
that the stream announces by that of the greedy lexeme, which it has read.
A peek does not change that length, and a test that refuses the next
character, or fails itself, leaves what a peek leaves. -/
theorem run_hints (code : String) (debug : Bool) (registry : Registry ε) {steps : List Step}
    (h : .restart ∉ steps) :
    let s := ((ofSource (.ofString code) debug registry).run steps).2
    let rest := leaves steps code.toList
    rest <:+ code.toList
    ∧ s.lexer.chars.lengthHint = .ok rest.length
    ∧ (s.lexer.lengthHint = .ok 0
        ↔ ∀ more, .restart ∉ more → (s.run more).2.lexer.nextToken.1 = .ok none)
    ∧ (s.lexer.lengthHint = .ok 0
        ∨ s.lexer.lengthHint = .ok 1 ∧ s.lexer.nextToken.1 ≠ .ok none)
    ∧ (∀ outcome : Except Fault (Located Token), s.lexer.nextToken.1 = outcome.map some →
        ∃ lexeme later, rest = lexeme ++ later ∧ Reads rest lexeme (outcome.map (·.val))
          ∧ s.lexer.nextToken.2.chars.lengthHint = .ok later.length)
    ∧ s.lexer.chars.peek.2.lengthHint = s.lexer.chars.lengthHint
    ∧ ∀ test, (∀ c, (s.lexer.chars.advanceWhen test).1 ≠ .ok (some c)) →
        (s.lexer.chars.advanceWhen test).2 = s.lexer.chars.peek.2
        ∧ (s.lexer.chars.advanceWhen test).2.lengthHint = s.lexer.chars.lengthHint := by
  intro s rest
  have hs : (CharStream.ofSource (.ofList code.toList)).Reaches s.lexer.chars :=
    (ofSource (.ofString code) debug registry).reaches_run h
  have hahead : s.lexer.chars.Ahead rest := ahead_run h (CharStream.ahead_ofSource code.toList)
  have hchars : s.lexer.chars.lengthHint = .ok rest.length :=
    CharStream.lengthHint_of_ahead hs hahead
  have hlexer : s.lexer.lengthHint = .ok (if rest.length = 0 then 0 else 1) := by
    rw [Lexer.lengthHint, hchars]
    rfl
  have hpeek : s.lexer.chars.peek.2.lengthHint = s.lexer.chars.lengthHint := by
    rw [hchars]
    exact CharStream.lengthHint_of_ahead (hs.trans (s.lexer.chars.reaches_step .peek)) hahead.peek
  have hnone := Lexer.nextToken_eq_none_iff hahead
  refine ⟨leaves_run_suffix steps code.toList, hchars,
    ⟨fun hzero more hmore => ?_, fun hmore => ?_⟩, ?_, fun outcome houtcome => ?_, hpeek,
    fun test htest => ?_⟩
  · have hrest : rest = [] := by
      rw [hlexer] at hzero
      simpa using hzero
    have hlater := ahead_run hmore (hrest ▸ hahead)
    rw [List.suffix_nil.1 (leaves_run_suffix more [])] at hlater
    exact (Lexer.nextToken_of_nil hlater).1
  · have hrest := hnone.1 (hmore [] List.not_mem_nil)
    rw [hlexer, hrest]
    rfl
  · by_cases hrest : rest = []
    · left
      rw [hlexer, hrest]
      rfl
    · right
      rw [hlexer, if_neg (mt List.length_eq_zero_iff.1 hrest)]
      exact ⟨rfl, mt hnone.1 hrest⟩
  · obtain ⟨c, more, hrest, hreading, hlater⟩ :=
      Lexer.first_of_outcome outcome hahead (Prod.ext houtcome rfl)
    have hreaches := hs.trans s.lexer.reaches_nextToken
    rw [hrest]
    refine ⟨_, _, (Lexeme.first_append c more).symm, Lexeme.reads_iff.2 (by rw [← hreading]),
      CharStream.lengthHint_of_ahead hreaches hlater⟩
  · rw [CharStream.advanceWhen_of_refused htest]
    exact ⟨rfl, hpeek⟩

/-- The `&` behind a name is held when it has been seen, and counted. -/
theorem run_hints_name :
    .restart ∉ [Step.token, .chars .peek]
      ∧ let s := ((ofSource (.ofString "\\ab&1") false (Registry.empty : Registry Unit)).run
          [.token, .chars .peek]).2
        s.lexer.chars.lookahead.count = 1
          ∧ s.lexer.chars.lengthHint = .ok 2 ∧ s.lexer.lengthHint = .ok 1 := by
  have hsteps : .restart ∉ [Step.token, .chars .peek] := by simp
  obtain ⟨-, hchars, -, hlexer, -⟩ :=
    run_hints "\\ab&1" false (Registry.empty : Registry Unit) hsteps
  have hleaves : leaves [.token, .chars .peek] "\\ab&1".toList = ['&', '1'] := by decide +kernel
  rw [hleaves] at hchars
  refine ⟨hsteps, by decide +kernel, hchars, ?_⟩
  rcases hlexer with hzero | ⟨hone, -⟩
  · exact absurd hzero (by decide +kernel)
  · exact hone

end Session

end TexMath
