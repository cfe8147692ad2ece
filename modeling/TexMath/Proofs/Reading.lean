/-
The lexer reads lexemes: what one call for a token does to a stream, in
terms of the first lexeme of what is unread.

# The statement

Let the unread characters up to the next end or failure be `c :: rest`.
The call takes the first lexeme of that text and answers with its
reading, located where the text starts. A lexeme that wants more looks
at one event behind it, and there the source has its say: a failure
takes the place of the token, a reported end is final. A complete
lexeme looks at nothing (`Unread.token`).

`nextToken_follows` says this of every coherent stream, whatever its
place of lookahead holds; the lexeme itself comes from `Lexeme.first`,
which knows nothing of streams. The proof goes token by token, and its
only loop is the one for runs.
-/
import TexMath.Lexer
import TexMath.Proofs.Boundary
import TexMath.Proofs.Unread

namespace TexMath

open Text

theorem Attempt.map_eq_bind {σ α β : Type} (f : α → β) (r : Attempt σ α) :
    r.map f = (r.1.bind fun a => .ok (f a), r.2) := by
  obtain ⟨answer, state⟩ := r
  cases answer <;> rfl

-- ======================================================= tokens on the view

namespace Unread

variable {u v : Unread}

/-- Reads a lexeme of which the characters `taken` are unread, and looks
at what is left when the lexeme wants more. -/
def finish (cut : Lexeme × List Char) (taken : List Char) (u : Unread) : Attempt Unread Token :=
  if cut.1.wants.isSome then (u.past taken cut.2).look cut.1.reading
  else (cut.1.reading, u.past taken cut.2)

/-- Reads the first lexeme as a located token; nothing at the end. -/
def token (u : Unread) : Attempt Unread (Option (Located Token)) :=
  match u.text with
  | [] => u.look (.ok none)
  | c :: rest =>
    let cut := Lexeme.first c rest
    (u.finish cut cut.1.text).map fun token => some ⟨token, u.position⟩

/-- Reads the rest of the lexeme that the character `c` in front of what
is unread has started. -/
def tokenFrom (c : Char) (u : Unread) : Attempt Unread Token :=
  let cut := Lexeme.first c u.text
  u.finish cut cut.1.text.tail

theorem finish_of_complete (cut : Lexeme × List Char) (taken : List Char)
    (h : cut.1.wants = none) : u.finish cut taken = (cut.1.reading, u.past taken cut.2) := by
  unfold finish
  rw [h]
  rfl

theorem finish_of_wants {p : Char → Bool} (cut : Lexeme × List Char) (taken : List Char)
    (h : cut.1.wants = some p) : u.finish cut taken = (u.past taken cut.2).look cut.1.reading := by
  unfold finish
  rw [h]
  rfl

theorem finish_of_leaves {c : Located Char} (h : u.Leaves c v) (cut : Lexeme × List Char)
    (taken : List Char) : u.finish cut (c.val :: taken) = v.finish cut taken := by
  unfold finish
  rw [h.past]

/-- The rest of a complete lexeme of one character is nothing. -/
theorem tokenFrom_single {c : Char} (read : Except Fault Token)
    (hcomplete : Lexeme.wants ⟨[c], read⟩ = none)
    (hfirst : Lexeme.first c u.text = (⟨[c], read⟩, u.text)) : u.tokenFrom c = (read, u) := by
  have hall := finish_of_complete (u := u) (⟨[c], read⟩, u.text) [] hcomplete
  rw [past_nil] at hall
  unfold tokenFrom
  rw [hfirst]
  exact hall

theorem tokenFrom_pair {c : Char} {d : Located Char} (read : Except Fault Token)
    (hleaves : u.Leaves d v) (hcomplete : Lexeme.wants ⟨[c, d.val], read⟩ = none)
    (hfirst : Lexeme.first c (d.val :: v.text) = (⟨[c, d.val], read⟩, v.text)) :
    u.tokenFrom c = (read, v) := by
  have hall := finish_of_complete (u := u) (⟨[c, d.val], read⟩, v.text) [d.val] hcomplete
  rw [hleaves.past, past_nil] at hall
  unfold tokenFrom
  rw [hleaves.text, hfirst]
  exact hall

/-- The rest of a lexeme that the end of the text makes. -/
theorem tokenFrom_last {c : Char} (read : Except Fault Token) (h : u.text = [])
    (hall : Lexeme.wants ⟨[c], read⟩ = some fun _ => true)
    (hfirst : Lexeme.first c [] = (⟨[c], read⟩, [])) : u.tokenFrom c = u.look read := by
  have hlast := finish_of_wants (u := u) (⟨[c], read⟩, u.text) [] hall
  rw [past_nil, h] at hlast
  unfold tokenFrom
  rw [h, hfirst]
  exact hlast

theorem tokenFrom_run {c : Char} {p : Char → Bool} {read : List Char → Except Fault Token}
    (hrun : Lexeme.wants (Lexeme.withRun [c] p read u.text).1 = some p)
    (hfirst : Lexeme.first c u.text = Lexeme.withRun [c] p read u.text) :
    u.tokenFrom c = (u.afterRun p).look (read (u.text.takeWhile p)) := by
  unfold tokenFrom
  rw [hfirst]
  exact finish_of_wants _ _ hrun

/-- A token is the first character and the rest of its lexeme. -/
theorem token_of_leaves {c : Located Char} (h : u.Leaves c v) :
    u.token = (v.tokenFrom c.val).map fun token => some ⟨token, c.span⟩ := by
  obtain ⟨run, htext, -⟩ := Lexeme.first_cuts c.val v.text
  unfold token tokenFrom
  rw [h.text, h.start]
  show (u.finish _ (Lexeme.first c.val v.text).1.text).map _
    = (v.finish _ (Lexeme.first c.val v.text).1.text.tail).map _
  rw [htext, finish_of_leaves h]
  rfl

end Unread

-- ===================================================== tokens from a stream

namespace CharStream

variable {s : CharStream}

theorem collectRun_read {p : Char → Bool} {α : Type} (first : List Char)
    (f : List Char → Except Fault α) (h : s.Coherent) :
    Follows ((s.collectRun first p).1.bind f, (s.collectRun first p).2)
      ((s.unread.afterRun p).look (f (first ++ s.unread.text.takeWhile p))) := by
  have hfollows := (collectRun_follows first p h).bind f
  rwa [Unread.run_bind, List.reverse_reverse] at hfollows

theorem control_follows (h : s.Coherent) : Follows s.control (s.unread.tokenFrom '\\') := by
  unfold control
  have hstep := advance_advanced h
  generalize s.advance = r at hstep
  cases hstep with
  | ended t hcoherent htext hlook =>
    rw [Unread.tokenFrom_last (.ok (.control "")) htext rfl rfl, hlook]
    exact ⟨rfl, rfl, hcoherent⟩
  | failed fault t hcoherent htext hlook =>
    rw [Unread.tokenFrom_last (.ok (.control "")) htext rfl rfl, hlook]
    exact ⟨rfl, rfl, hcoherent⟩
  | char c t hcoherent hleaves =>
    show Follows (if isLetter c.val = true then _ else _) _
    cases hletter : isLetter c.val with
    | true =>
      have hfirst := Lexeme.first_of_letter t.unread.text hletter
      have hrun := Lexeme.wants_name t.unread.text hletter
      rw [hfirst] at hrun
      rw [← hleaves.text] at hfirst hrun
      rw [Unread.tokenFrom_run hrun hfirst, hleaves.afterRun hletter, hleaves.text,
        List.takeWhile_cons_of_pos hletter, if_pos rfl, Attempt.map_eq_bind]
      exact collectRun_read [c.val] _ hcoherent
    | false =>
      rw [Unread.tokenFrom_pair _ hleaves (Lexeme.wants_symbol _ hletter)
        (Lexeme.first_of_symbol _ hletter)]
      exact ⟨rfl, rfl, hcoherent⟩

theorem argumentOfDigits_eq (digits : List Char) :
    argumentOfDigits digits = Lexeme.number digits := by
  unfold argumentOfDigits Lexeme.number
  by_cases h : digitLimit < digits.length
  · rw [if_pos h, if_neg (Nat.not_le_of_lt h)]
  · rw [if_neg h, if_pos (Nat.le_of_not_lt h)]

theorem argument_follows (h : s.Coherent) : Follows s.argument (s.unread.tokenFrom '#') := by
  unfold argument
  have hstep := advance_advanced h
  generalize s.advance = r at hstep
  cases hstep with
  | ended t hcoherent htext hlook =>
    rw [Unread.tokenFrom_last (.ok (.error ⟨"#"⟩)) htext rfl rfl, hlook]
    exact ⟨rfl, rfl, hcoherent⟩
  | failed fault t hcoherent htext hlook =>
    rw [Unread.tokenFrom_last (.ok (.error ⟨"#"⟩)) htext rfl rfl, hlook]
    exact ⟨rfl, rfl, hcoherent⟩
  | char c t hcoherent hleaves =>
    show Follows (if isDigit c.val = true then _ else _) _
    cases hdigit : isDigit c.val with
    | true =>
      have hfirst := Lexeme.first_of_digit t.unread.text hdigit
      rw [← hleaves.text] at hfirst
      rw [Unread.tokenFrom_run (Lexeme.wants_number _ _) hfirst, hleaves.afterRun hdigit,
        hleaves.text, List.takeWhile_cons_of_pos hdigit, if_pos rfl]
      have hfollows := collectRun_read (p := isDigit) [c.val] Lexeme.number hcoherent
      generalize t.collectRun [c.val] isDigit = r at hfollows ⊢
      obtain ⟨answer, u⟩ := r
      cases answer with
      | ok digits =>
        show Follows (argumentOfDigits digits, u) _
        rw [argumentOfDigits_eq]
        exact hfollows
      | error fault => exact hfollows
    | false =>
      rw [Unread.tokenFrom_pair _ hleaves rfl (Lexeme.first_of_illegal _ hdigit)]
      exact ⟨rfl, rfl, hcoherent⟩

theorem not_endsComment : (!endsComment ·) = fun d => decide (d ≠ '\n') && decide (d ≠ '\x00') := by
  funext d
  simp only [endsComment, Bool.not_or, decide_not]

theorem tokenFrom_of_blank {c : Char} (h : isBlank c = true) :
    s.tokenFrom c
      = (s.collectRun [c] isBlank).map fun text => .whitespace (String.ofList text) := by
  obtain ⟨h1, h2, h3, h4, h5, h6, h7⟩ :=
    Lexeme.ne_of_not_special (Lexeme.not_special_of_isBlank h)
  unfold tokenFrom
  rw [if_neg h1, if_neg h2, if_neg h3, if_neg h4, if_neg h5, if_neg h6, if_neg h7, if_pos h]

theorem tokenFrom_of_plain {c : Char} (h : isBlank c = false) (hplain : c ∉ Token.specials) :
    s.tokenFrom c = (.ok (.char (String.ofList [c])), s) := by
  obtain ⟨h1, h2, h3, h4, h5, h6, h7⟩ := Lexeme.ne_of_not_special hplain
  unfold tokenFrom
  rw [if_neg h1, if_neg h2, if_neg h3, if_neg h4, if_neg h5, if_neg h6, if_neg h7, h]
  rfl

/-- The rest of every token is the rest of a lexeme. -/
theorem tokenFrom_follows (c : Char) (h : s.Coherent) :
    Follows (s.tokenFrom c) (s.unread.tokenFrom c) := by
  induction c using Lexeme.startCases with
  | left =>
    rw [Unread.tokenFrom_single (.ok (.brace .left)) rfl rfl]
    exact ⟨rfl, rfl, h⟩
  | right =>
    rw [Unread.tokenFrom_single (.ok (.brace .right)) rfl rfl]
    exact ⟨rfl, rfl, h⟩
  | ampersand =>
    rw [Unread.tokenFrom_single (.ok .ampersand) rfl rfl]
    exact ⟨rfl, rfl, h⟩
  | nul =>
    rw [Unread.tokenFrom_single (.ok .eof) rfl rfl]
    exact ⟨rfl, rfl, h⟩
  | backslash => exact control_follows h
  | hash => exact argument_follows h
  | percent =>
    rw [Unread.tokenFrom_run rfl (Lexeme.first_percent _), ← not_endsComment]
    show Follows ((s.collectRun [] (!endsComment ·)).map _) _
    rw [Attempt.map_eq_bind]
    exact collectRun_read [] _ h
  | blank c hblank =>
    rw [Unread.tokenFrom_run rfl (Lexeme.first_of_blank _ hblank), tokenFrom_of_blank hblank,
      Attempt.map_eq_bind]
    exact collectRun_read [c] _ h
  | plain c hblank hplain =>
    rw [Unread.tokenFrom_single _ rfl (Lexeme.first_of_plain _ hblank hplain),
      tokenFrom_of_plain hblank hplain]
    exact ⟨rfl, rfl, h⟩

/-- A call for a token reads the first lexeme of what is unread. -/
theorem nextToken_follows (h : s.Coherent) : Follows s.nextToken s.unread.token := by
  unfold nextToken
  have hstep := advance_advanced h
  generalize s.advance = r at hstep
  cases hstep with
  | ended t hcoherent htext hlook =>
    unfold Unread.token
    rw [htext]
    show Follows _ (s.unread.look (.ok none))
    rw [hlook]
    exact ⟨rfl, rfl, hcoherent⟩
  | failed fault t hcoherent htext hlook =>
    unfold Unread.token
    rw [htext]
    show Follows _ (s.unread.look (.ok none))
    rw [hlook]
    exact ⟨rfl, rfl, hcoherent⟩
  | char c t hcoherent hleaves =>
    have hfollows := tokenFrom_follows c.val hcoherent
    rw [Unread.token_of_leaves hleaves]
    exact hfollows.map fun token => (some ⟨token, c.span⟩ : Option (Located Token))

end CharStream

end TexMath
