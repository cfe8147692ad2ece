/-
Lexing is a run of stream steps.

A call for a token, and whatever a consumer does to a session but putting
a new lexer into it, touches the character stream through its steps
alone: it peeks, it advances, and it advances when a test accepts the
character. So the stream it leaves is one that a run of stream steps
leaves as well (`Session.reaches_run`), and what every such run keeps is
kept by every consumer (`CharStream.Reaches.keeps`). Which steps they are
does not matter to an invariant, and no lemma here says it.
-/
import TexMath.Proofs.Conservation
import TexMath.Proofs.Memoryless

namespace TexMath

open Text

-- ================================================================ stream steps

namespace CharStream

variable {s t u : CharStream}

/-- The stream `t` is what some run of stream steps leaves of `s`. -/
def Reaches (s t : CharStream) : Prop :=
  ∃ steps, (s.run steps).2 = t

theorem run_append (s : CharStream) (steps more : List Step) :
    (s.run (steps ++ more)).2 = ((s.run steps).2.run more).2 := by
  induction steps generalizing s with
  | nil => rfl
  | cons x steps ih => exact ih (s.step x).2

theorem Reaches.refl (s : CharStream) : s.Reaches s :=
  ⟨[], rfl⟩

theorem Reaches.trans (h : s.Reaches t) (h' : t.Reaches u) : s.Reaches u := by
  obtain ⟨steps, rfl⟩ := h
  obtain ⟨more, rfl⟩ := h'
  exact ⟨steps ++ more, run_append s steps more⟩

/-- What every step keeps is kept on the way to any stream that is
reached. -/
theorem Reaches.keeps {P : CharStream → Prop} (h : s.Reaches t)
    (step : ∀ s x, P s → P (step s x).2) (hs : P s) : P t := by
  obtain ⟨steps, rfl⟩ := h
  induction steps generalizing s with
  | nil => exact hs
  | cons x steps ih => exact ih (step s x hs)

theorem reaches_step (s : CharStream) (x : Step) : s.Reaches (s.step x).2 :=
  ⟨[x], rfl⟩

theorem reaches_advance (s : CharStream) : s.Reaches s.advance.2 :=
  s.reaches_step .advance

theorem reaches_advanceIf (p : Char → Bool) (s : CharStream) : s.Reaches (s.advanceIf p).2 :=
  s.reaches_step (.advanceIf _)

theorem reaches_collectOnto (found : List Char) (p : Char → Bool) (s : CharStream) :
    s.Reaches (s.collectOnto found p).2 := by
  have hstep := reaches_advanceIf p s
  fun_induction collectOnto found p s with
  | case1 found s c t h ih =>
    rw [h] at hstep
    exact hstep.trans (ih (reaches_advanceIf p t))
  | case2 found s t h => rwa [h] at hstep
  | case3 found s fault t h => rwa [h] at hstep

theorem reaches_collectRun (first : List Char) (p : Char → Bool) (s : CharStream) :
    s.Reaches (s.collectRun first p).2 :=
  reaches_collectOnto first.reverse p s

-- =============================================================== single tokens

theorem reaches_control (s : CharStream) : s.Reaches s.control.2 := by
  have hadvance := s.reaches_advance
  unfold control
  split
  · next t h => rwa [h] at hadvance
  · next c t h =>
    rw [h] at hadvance
    split
    · exact hadvance.trans (reaches_collectRun [c.val] isLetter t)
    · exact hadvance
  · next fault t h => rwa [h] at hadvance

theorem reaches_argument (s : CharStream) : s.Reaches s.argument.2 := by
  have hadvance := s.reaches_advance
  unfold argument
  split
  · next t h => rwa [h] at hadvance
  · next c t h =>
    rw [h] at hadvance
    split
    · have hrun := hadvance.trans (reaches_collectRun [c.val] isDigit t)
      split
      · next digits u h' => rwa [h'] at hrun
      · next fault u h' => rwa [h'] at hrun
    · exact hadvance
  · next fault t h => rwa [h] at hadvance

theorem reaches_tokenFrom (c : Char) (s : CharStream) : s.Reaches (s.tokenFrom c).2 := by
  unfold tokenFrom
  repeat' split
  any_goals exact .refl s
  · exact s.reaches_control
  · exact reaches_collectRun _ _ s
  · exact s.reaches_argument
  · exact reaches_collectRun _ _ s

/-- A call that does not fail finds the end where the stream advances to
it, or gives the token that the character starts to which it advances. -/
theorem nextToken_cases {answer : Option (Located Token)} (h : s.nextToken = (.ok answer, t)) :
    (answer = none ∧ s.advance = (.ok none, t))
      ∨ ∃ c u token, answer = some ⟨token, c.span⟩ ∧ s.advance = (.ok (some c), u)
        ∧ u.tokenFrom c.val = (.ok token, t) := by
  unfold nextToken at h
  split at h
  · next u hadvance =>
    cases h
    exact .inl ⟨rfl, hadvance⟩
  · next c u hadvance =>
    obtain ⟨hanswer, rfl⟩ := Prod.mk.inj h
    cases hread : (u.tokenFrom c.val).1 with
    | ok token =>
      rw [hread] at hanswer
      cases hanswer
      exact .inr ⟨c, u, token, rfl, hadvance, Prod.ext hread rfl⟩
    | error fault =>
      rw [hread] at hanswer
      cases hanswer
  · cases (Prod.mk.inj h).1

/-- A call for a token is a run of stream steps. -/
theorem reaches_nextToken (s : CharStream) : s.Reaches s.nextToken.2 := by
  have hadvance := s.reaches_advance
  unfold nextToken
  split
  · next t h => rwa [h] at hadvance
  · next c t h =>
    rw [h] at hadvance
    exact hadvance.trans (reaches_tokenFrom c.val t)
  · next fault t h => rwa [h] at hadvance

end CharStream

-- ==================================================================== sessions

theorem Lexer.reaches_nextToken (lexer : Lexer) :
    lexer.chars.Reaches lexer.nextToken.2.chars := by
  rw [chars_nextToken]
  exact lexer.chars.reaches_nextToken

theorem Lexer.reaches_collect (found : List (Located Token)) (lexer : Lexer) :
    lexer.chars.Reaches (lexer.collect found).2.chars := by
  have hcall := lexer.reaches_nextToken
  fun_induction collect found lexer with
  | case1 found lexer token later h ih =>
    rw [h] at hcall
    exact hcall.trans (ih later.reaches_nextToken)
  | case2 found lexer later h => rwa [h] at hcall
  | case3 found lexer fault later h => rwa [h] at hcall

namespace Session

variable {ε : Type}

theorem reaches_step (s : Session ε) {x : Step} (h : x ≠ .restart) :
    s.lexer.chars.Reaches (s.step x).2.lexer.chars := by
  cases x with
  | token => exact s.lexer.reaches_nextToken
  | tokens => exact Lexer.reaches_collect [] s.lexer
  | hint => exact .refl _
  | expanded => exact s.lexer.reaches_nextToken
  | expandedTokens =>
    show s.lexer.chars.Reaches (s.expander.collect []).2.lexer.chars
    rw [Expander.collect_eq]
    exact Lexer.reaches_collect [] s.lexer
  | restart => exact absurd rfl h
  | chars x => exact s.lexer.chars.reaches_step x
  | charHint => exact .refl _

/-- Whatever consumers do to one lexer is a run of stream steps. -/
theorem reaches_run (s : Session ε) {steps : List Step} (h : .restart ∉ steps) :
    s.lexer.chars.Reaches (s.run steps).2.lexer.chars := by
  induction steps generalizing s with
  | nil => exact .refl _
  | cons x steps ih =>
    have hx : x ≠ .restart := fun hx => h (hx ▸ List.mem_cons_self)
    have hlater : .restart ∉ steps := fun hmem => h (List.mem_cons_of_mem x hmem)
    exact (s.reaches_step hx).trans (ih (s.step x).2 hlater)

end Session

end TexMath
