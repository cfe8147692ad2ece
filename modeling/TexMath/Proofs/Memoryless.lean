/-
The lexer is memoryless: what it will answer depends on what it has
still to read and on nothing else.

# The state that could matter

Between two calls a lexer remembers a character of lookahead with its
own location, a tracker that may be one character ahead, and whether
the end has been met. The three are one view (`CharStream.unread`) as
long as the tracker stands right behind the character of lookahead, and
that is kept by every step a consumer can take, the failing ones
included: a fault leaves the place of lookahead empty, or it comes from
digits that have been consumed (`Session.coherent_run`).

# Starting anew

So a lexer that has come some way and a new one over the rest of its
source differ in where the next character stands, and only there.
Moving the text moves the locations of the tokens and nothing else
(`Unread.calls_shift`). An ended stream is the case of no events: it
never asks its source again, whatever that would still do.
-/
import TexMath.Proofs.Outcomes
import TexMath.Session

namespace TexMath

-- ==================================================================== calls

/-- The outcomes of the next `n` calls for a token. -/
def Lexer.calls (lexer : Lexer) : Nat → List (Except Fault (Option (Located Token)))
  | 0 => []
  | n + 1 => lexer.nextToken.1 :: lexer.nextToken.2.calls n

/-- The outcomes of the next `n` calls over the view. -/
def Unread.calls (u : Unread) : Nat → List (Except Fault (Option (Located Token)))
  | 0 => []
  | n + 1 => u.token.1 :: u.token.2.calls n

/-- A coherent lexer answers what its view does, call after call. -/
theorem Lexer.calls_eq {lexer : Lexer} (h : lexer.chars.Coherent) (n : Nat) :
    lexer.calls n = lexer.chars.unread.calls n := by
  induction n generalizing lexer with
  | zero => rfl
  | succ n ih =>
    obtain ⟨htoken, hcoherent⟩ := token_unread h
    show _ :: _ = lexer.chars.unread.token.1 :: lexer.chars.unread.token.2.calls n
    rw [htoken, ih hcoherent]

-- ============================================================== moved texts

namespace Unread

variable {α : Type} {u : Unread}

/-- The same events where the text starts at `base`. -/
def shift (base : Span) (u : Unread) : Unread :=
  ⟨u.events, base.shift u.position⟩

theorem look_shift (base : Span) (answer : Except Fault α) (u : Unread) :
    (u.shift base).look answer = (u.look answer).within (shift base) := by
  obtain ⟨events, position⟩ := u
  cases events with
  | nil => rfl
  | cons e rest => cases e <;> rfl

theorem past_shift (base : Span) (taken later : List Char) (h : 1 ≤ u.position.line) :
    (u.shift base).past taken later = (u.past taken later).shift base := by
  unfold past shift
  rw [Span.afterAll_shift base taken h]
  rfl

theorem finish_shift (base : Span) (cut : Lexeme × List Char) (taken : List Char)
    (h : 1 ≤ u.position.line) :
    (u.shift base).finish cut taken = (u.finish cut taken).within (shift base) := by
  unfold finish
  rw [past_shift base _ _ h]
  split
  · exact look_shift base _ _
  · rfl

/-- Moving the text moves the token of a call, and what the call leaves. -/
theorem token_shift (base : Span) (h : 1 ≤ u.position.line) :
    (u.shift base).token
      = (u.token.map (Option.map (Located.shift base))).within (shift base) := by
  unfold token
  rw [show (u.shift base).text = u.text from rfl]
  cases u.text with
  | nil =>
    show (u.shift base).look (.ok none) = _
    rw [look_shift]
    obtain ⟨events, position⟩ := u
    cases events with
    | nil => rfl
    | cons e rest => cases e <;> rfl
  | cons c rest =>
    show Attempt.map _ ((u.shift base).finish _ _)
      = Attempt.within _ (Attempt.map _ (Attempt.map _ (u.finish (Lexeme.first c rest) _)))
    rw [finish_shift base _ _ h]
    obtain ⟨answer, left⟩ := u.finish (Lexeme.first c rest) (Lexeme.first c rest).1.text
    cases answer <;> rfl

theorem line_le_token (u : Unread) : u.position.line ≤ u.token.2.position.line := by
  unfold token
  split
  · exact Int.le_of_eq (congrArg Span.line (position_look _ _).symm)
  · next c rest htext =>
    show _ ≤ (u.finish (Lexeme.first c rest) (Lexeme.first c rest).1.text).2.position.line
    unfold finish
    split
    · rw [position_look]
      exact Span.line_le_afterAll _ _
    · exact Span.line_le_afterAll _ _

/-- Moving the text moves the tokens of all calls. -/
theorem calls_shift (base : Span) (h : 1 ≤ u.position.line) (n : Nat) :
    (u.shift base).calls n
      = (u.calls n).map (Except.map (Option.map (Located.shift base))) := by
  induction n generalizing u with
  | zero => rfl
  | succ n ih =>
    have htoken := token_shift base h
    have hlater := Int.le_trans h u.line_le_token
    show (u.shift base).token.1 :: (u.shift base).token.2.calls n
      = u.token.1.map _ :: (u.token.2.calls n).map _
    rw [htoken, ← ih hlater]
    rfl

theorem calls_of_events_nil (h : u.events = []) (n : Nat) :
    u.calls n = List.replicate n (.ok none) := by
  induction n generalizing u with
  | zero => rfl
  | succ n ih =>
    obtain ⟨events, position⟩ := u
    subst h
    show _ :: calls ⟨[], position⟩ n = _
    rw [ih rfl, List.replicate_succ]
    rfl

end Unread

-- ====================================================== what steps preserve

theorem CharStream.coherent_step {s : CharStream} (x : Step) (h : s.Coherent) :
    (s.step x).2.Coherent := by
  rcases s.step_eq_peek_or x with hx | hx
  · rw [hx]
    exact (peek_follows h).coherent
  · rw [hx]
    exact (advance_follows h).coherent

namespace Lexer

/-- Taking all tokens keeps a lexer coherent, wherever it stops. -/
theorem coherent_collect {lexer : Lexer} (found : List (Located Token))
    (h : lexer.chars.Coherent) : (lexer.collect found).2.chars.Coherent := by
  have hstep := (token_unread h).2
  fun_induction collect found lexer with
  | case1 found lexer token later hcall ih =>
    rw [hcall] at hstep
    exact ih hstep (token_unread hstep).2
  | case2 found lexer later hcall =>
    rw [hcall] at hstep
    exact hstep
  | case3 found lexer fault later hcall =>
    rw [hcall] at hstep
    exact hstep

end Lexer

namespace Expander

variable {ε : Type}

/-- The expander takes the tokens that its lexer takes. -/
theorem collect_eq (found : List (Located Token)) (e : Expander ε) :
    e.collect found = (e.lexer.collect found).within fun lexer => { e with lexer } := by
  fun_induction collect found e with
  | case1 found e token later hcall ih =>
    obtain ⟨hanswer, rfl⟩ := Prod.mk.inj hcall
    have hforwarded : e.lexer.nextToken = (.ok (some token), e.lexer.nextToken.2) :=
      Prod.ext hanswer rfl
    rw [ih, Lexer.collect.eq_def found e.lexer, hforwarded]
  | case2 found e later hcall =>
    obtain ⟨hanswer, rfl⟩ := Prod.mk.inj hcall
    have hforwarded : e.lexer.nextToken = (.ok none, e.lexer.nextToken.2) := Prod.ext hanswer rfl
    rw [Lexer.collect.eq_def found e.lexer, hforwarded]
    rfl
  | case3 found e fault later hcall =>
    obtain ⟨hanswer, rfl⟩ := Prod.mk.inj hcall
    have hforwarded : e.lexer.nextToken = (.error fault, e.lexer.nextToken.2) :=
      Prod.ext hanswer rfl
    rw [Lexer.collect.eq_def found e.lexer, hforwarded]
    rfl

end Expander

namespace Session

variable {ε : Type} {s : Session ε}

theorem coherent_step (step : Step) (h : s.lexer.chars.Coherent) :
    (s.step step).2.lexer.chars.Coherent := by
  cases step with
  | token => exact (Lexer.token_unread h).2
  | tokens => exact Lexer.coherent_collect [] h
  | hint => exact h
  | expanded => exact (Lexer.token_unread h).2
  | expandedTokens =>
    show (s.expander.collect []).2.lexer.chars.Coherent
    rw [Expander.collect_eq]
    exact Lexer.coherent_collect [] h
  | restart => exact CharStream.coherent_ofSource _
  | chars x => exact CharStream.coherent_step x h
  | charHint => exact h

/-- Every run keeps the stream of a session coherent. -/
theorem coherent_run (steps : List Step) (h : s.lexer.chars.Coherent) :
    (s.run steps).2.lexer.chars.Coherent := by
  induction steps generalizing s with
  | nil => exact h
  | cons step steps ih => exact ih (coherent_step step h)

end Session

-- ============================================================ starting anew

namespace Lexer

/-- A new lexer over the character of lookahead and what is left of the
source. -/
def anew (lexer : Lexer) : Lexer :=
  ofSource (.ofEvents lexer.chars.unread.events .exact) lexer.debug

/-- A coherent lexer answers what a new one over the rest of its source
does, moved to where the rest starts. -/
theorem calls_anew {lexer : Lexer} (h : lexer.chars.Coherent) (n : Nat) :
    lexer.calls n = (lexer.anew.calls n).map
      (Except.map (Option.map (Located.shift lexer.chars.unread.position))) := by
  have hstart : lexer.anew.chars.unread.shift lexer.chars.unread.position = lexer.chars.unread := by
    show (⟨lexer.chars.unread.events, Span.shift _ .origin⟩ : Unread) = _
    rw [Span.shift_origin]
  rw [calls_eq h, calls_eq (CharStream.coherent_ofSource _), ← Unread.calls_shift _ (Int.le_refl 1),
    hstart]

theorem calls_of_ended {lexer : Lexer} (h : lexer.chars.Coherent)
    (hended : lexer.chars.lookahead = .ended) (n : Nat) :
    lexer.calls n = List.replicate n (.ok none) := by
  have hevents : lexer.chars.unread.events = [] := by
    unfold CharStream.unread
    rw [hended]
  rw [calls_eq h, Unread.calls_of_events_nil hevents]

end Lexer

/-- Whatever consumers have done to a lexer, it answers what a new lexer
over the rest of its source does, moved to the first character that is
not consumed; once the end has been met, it answers nothing else. -/
theorem calls_memoryless {ε : Type} (events : List Event) (debug : Bool) (registry : Registry ε)
    (steps : List Session.Step) (n : Nat) :
    let lexer := ((Session.ofSource (.ofEvents events .exact) debug registry).run steps).2.lexer
    lexer.calls n =
      if lexer.chars.lookahead = .ended then List.replicate n (.ok none)
      else (lexer.anew.calls n).map
        (Except.map (Option.map (Located.shift lexer.chars.unread.position))) := by
  intro lexer
  have hcoherent : lexer.chars.Coherent :=
    Session.coherent_run steps (CharStream.coherent_ofSource _)
  by_cases hended : lexer.chars.lookahead = .ended
  · rw [if_pos hended, Lexer.calls_of_ended hcoherent hended]
  · rw [if_neg hended]
    exact Lexer.calls_anew hcoherent n

end TexMath
