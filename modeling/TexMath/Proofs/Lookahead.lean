/-
The place of lookahead: what a step leaves in it.

The view of a stream (`Unread`) does not tell a character that is held
from one that the source has still to hand out, because no answer depends
on the difference. What the source has been asked for does. A peek fills
the place with what comes next, be it a character or the end, and a
failure leaves it empty (`Unread.place`); consuming a character empties
it.

# Runs and lexemes

A run ends with a character that it has looked at and not taken, so the
place behind a run is the place in front of what is left
(`lookahead_collectOnto`). A complete lexeme ends with a character that it
has consumed, and nothing is held behind it. So what a call for a token
leaves in the place of lookahead follows from the lexeme that it reads:
what comes next when the lexeme wants more, nothing when it does not
(`lookahead_nextToken`).
-/
import TexMath.Proofs.Reading

namespace TexMath

open Text

-- ======================================================== places on the view

namespace Unread

variable {u v : Unread}

/-- The place of lookahead after a look at what comes next. -/
def place (u : Unread) : Lookahead :=
  match u.events with
  | .char c :: _ => .held ⟨c, u.position⟩
  | .fail _ :: _ => .empty
  | _ => .ended

/-- The place of lookahead behind a lexeme of which the characters `taken`
are unread: filled when the lexeme wants more. -/
def placeBehind (cut : Lexeme × List Char) (taken : List Char) (u : Unread) : Lookahead :=
  if cut.1.wants.isSome then (u.past taken cut.2).place else .empty

/-- The place of lookahead behind the first lexeme. -/
def placeBehindToken (u : Unread) : Lookahead :=
  match u.text with
  | [] => u.place
  | c :: rest => u.placeBehind (Lexeme.first c rest) (Lexeme.first c rest).1.text

/-- The place of lookahead behind the lexeme that the character `c` in
front of what is unread has started. -/
def placeFrom (c : Char) (u : Unread) : Lookahead :=
  u.placeBehind (Lexeme.first c u.text) (Lexeme.first c u.text).1.text.tail

/-- The place of lookahead behind a character that starts a run of
characters that `p` accepts, or takes one other character along. -/
def placeBehindMarker (p : Char → Bool) (u : Unread) : Lookahead :=
  match u.text with
  | [] => u.place
  | c :: _ => if p c then (u.afterRun p).place else .empty

theorem place_of_leaves {c : Located Char} (h : u.Leaves c v) : u.place = .held c := by
  unfold place
  rw [h.events, h.start]

/-- Where no character comes next, none is held after a look. -/
theorem release_place (h : u.text = []) : u.place.release = u.place := by
  obtain ⟨events, position⟩ := u
  cases events with
  | nil => rfl
  | cons e rest =>
    cases e with
    | char c => cases h
    | stop => rfl
    | fail text => rfl

/-- A character that is taken is the first one, and is accepted. -/
theorem leaves_of_nextIf {p : Char → Bool} {c : Located Char} (h : u.nextIf p = (.ok (some c), v)) :
    u.Leaves c v ∧ p c.val = true := by
  obtain ⟨events, position⟩ := u
  cases events with
  | nil => cases h
  | cons e rest =>
    cases e with
    | char d =>
      simp only [nextIf, text, Event.leading] at h
      split at h
      · next haccepted =>
        cases h
        exact ⟨⟨rfl, rfl, rfl⟩, haccepted⟩
      · cases h
    | stop => cases h
    | fail text => cases h

/-- Where no character is taken the run is empty. -/
theorem afterRun_of_nextIf {p : Char → Bool} {answer : Except Fault (Option (Located Char))}
    (h : u.nextIf p = (answer, v)) (hnone_taken : ∀ c, answer ≠ .ok (some c)) :
    u.afterRun p = u := by
  have hall := past_nil u
  unfold afterRun
  cases htext : u.text with
  | nil => rwa [htext] at hall
  | cons c rest =>
    have hrefused : ¬ p c = true := by
      intro haccepted
      obtain ⟨events, position⟩ := u
      simp only [nextIf, htext, haccepted, if_true] at h
      cases events with
      | nil => cases htext
      | cons e rest => cases e <;> cases htext; exact hnone_taken _ (Prod.mk.inj h).1.symm
    rw [List.takeWhile_cons_of_neg hrefused, List.dropWhile_cons_of_neg hrefused, ← htext, hall]

theorem placeFrom_of_complete {c : Char} (h : (Lexeme.first c u.text).1.wants = none) :
    u.placeFrom c = .empty := by
  unfold placeFrom placeBehind
  rw [h]
  rfl

/-- Behind a lexeme that the end of the text makes stands what ends the
text. -/
theorem placeFrom_last {c : Char} (read : Except Fault Token) (h : u.text = [])
    (hall : Lexeme.wants ⟨[c], read⟩ = some fun _ => true)
    (hfirst : Lexeme.first c [] = (⟨[c], read⟩, [])) : u.placeFrom c = u.place := by
  have hrest := past_nil u
  rw [h] at hrest
  unfold placeFrom placeBehind
  rw [h, hfirst, hall]
  exact congrArg place hrest

theorem placeFrom_run {c : Char} {p : Char → Bool} {read : List Char → Except Fault Token}
    (hrun : Lexeme.wants (Lexeme.withRun [c] p read u.text).1 = some p)
    (hfirst : Lexeme.first c u.text = Lexeme.withRun [c] p read u.text) :
    u.placeFrom c = (u.afterRun p).place := by
  unfold placeFrom placeBehind
  rw [hfirst, hrun]
  rfl

theorem placeFrom_backslash (u : Unread) : u.placeFrom '\\' = u.placeBehindMarker isLetter := by
  unfold placeBehindMarker
  split
  · next htext => exact placeFrom_last (.ok (.control "")) htext rfl rfl
  · next c rest htext =>
    cases hletter : isLetter c with
    | true =>
      have hfirst := Lexeme.first_of_letter rest hletter
      have hrun := Lexeme.wants_name rest hletter
      rw [hfirst] at hrun
      rw [← htext] at hfirst hrun
      exact placeFrom_run hrun hfirst
    | false =>
      apply placeFrom_of_complete
      rw [htext, Lexeme.first_of_symbol rest hletter]
      exact Lexeme.wants_symbol _ hletter

theorem placeFrom_hash (u : Unread) : u.placeFrom '#' = u.placeBehindMarker isDigit := by
  unfold placeBehindMarker
  split
  · next htext => exact placeFrom_last (.ok (.error ⟨"#"⟩)) htext rfl rfl
  · next c rest htext =>
    cases hdigit : isDigit c with
    | true =>
      have hfirst := Lexeme.first_of_digit rest hdigit
      rw [← htext] at hfirst
      exact placeFrom_run (Lexeme.wants_number _ _) hfirst
    | false =>
      apply placeFrom_of_complete
      rw [htext, Lexeme.first_of_illegal rest hdigit]
      rfl

/-- What is held behind a token is what is held behind the rest of its
lexeme. -/
theorem placeBehindToken_of_leaves {c : Located Char} (h : u.Leaves c v) :
    u.placeBehindToken = v.placeFrom c.val := by
  obtain ⟨run, htext, -⟩ := Lexeme.first_cuts c.val v.text
  unfold placeBehindToken placeFrom placeBehind
  rw [h.text]
  show (if _ then (u.past (Lexeme.first c.val v.text).1.text _).place else _) = _
  rw [htext, h.past]
  rfl

end Unread

-- ============================================================= single steps

namespace CharStream

variable {s t : CharStream}

/-- A peek leaves what comes next in the place of lookahead. -/
theorem lookahead_peek (s : CharStream) : s.peek.2.lookahead = s.unread.place := by
  obtain ⟨⟨⟨events, hint, pulled⟩, position⟩, lookahead⟩ := s
  cases lookahead with
  | held c => rfl
  | ended => rfl
  | empty =>
    cases events with
    | nil => rfl
    | cons e rest => cases e <;> rfl

theorem lookahead_advance (s : CharStream) : s.advance.2.lookahead = s.unread.place.release := by
  rw [← lookahead_peek]
  rfl

/-- A character that is not taken stays in the place of lookahead. -/
theorem lookahead_advanceIf {p : Char → Bool} {answer : Except Fault (Option (Located Char))}
    (h : s.advanceIf p = (answer, t)) (hnone_taken : ∀ c, answer ≠ .ok (some c)) :
    t.lookahead = s.unread.place := by
  rw [← lookahead_peek]
  rw [advanceIf_eq] at h
  split at h
  · next c u hpeeked =>
    split at h
    · exact absurd (Prod.mk.inj h).1.symm (hnone_taken c)
    · rw [hpeeked, (Prod.mk.inj h).2]
  · next u hpeeked => rw [hpeeked, (Prod.mk.inj h).2]
  · next fault u hpeeked => rw [hpeeked, (Prod.mk.inj h).2]

/-- A run leaves what comes behind it in the place of lookahead. -/
theorem lookahead_collectOnto (found : List Char) (p : Char → Bool) (h : s.Coherent) :
    (s.collectOnto found p).2.lookahead = (s.unread.afterRun p).place := by
  fun_induction collectOnto found p s with
  | case1 found s c t hstep ih =>
    obtain ⟨hread, hcoherent⟩ := nextIf_of_advanceIf h hstep
    obtain ⟨hleaves, haccepted⟩ := Unread.leaves_of_nextIf hread
    rw [ih hcoherent, hleaves.afterRun haccepted]
  | case2 found s t hstep =>
    obtain ⟨hread, -⟩ := nextIf_of_advanceIf h hstep
    rw [Unread.afterRun_of_nextIf hread (by simp)]
    exact lookahead_advanceIf hstep (by simp)
  | case3 found s fault t hstep =>
    obtain ⟨hread, -⟩ := nextIf_of_advanceIf h hstep
    rw [Unread.afterRun_of_nextIf hread (by simp)]
    exact lookahead_advanceIf hstep (by simp)

theorem lookahead_collectRun (first : List Char) (p : Char → Bool) (h : s.Coherent) :
    (s.collectRun first p).2.lookahead = (s.unread.afterRun p).place :=
  lookahead_collectOnto first.reverse p h

-- =============================================================== single tokens

/-- The stream behind a character that starts a run of characters that `p`
accepts, or takes one other character along. -/
def behindMarker (p : Char → Bool) (s : CharStream) : CharStream :=
  match s.advance with
  | (.ok (some c), t) => if p c.val then (t.collectRun [c.val] p).2 else t
  | (_, t) => t

theorem control_snd (s : CharStream) : s.control.2 = s.behindMarker isLetter := by
  unfold control behindMarker
  split
  · next h => rw [h]
  · next h =>
    rw [h]
    dsimp only
    split <;> rfl
  · next h => rw [h]

theorem argument_snd (s : CharStream) : s.argument.2 = s.behindMarker isDigit := by
  unfold argument behindMarker
  split
  · next h => rw [h]
  · next c t h =>
    rw [h]
    dsimp only
    split
    · split
      · next hrun => rw [hrun]
      · next hrun => rw [hrun]
    · rfl
  · next h => rw [h]

theorem lookahead_behindMarker (p : Char → Bool) (h : s.Coherent) :
    (s.behindMarker p).lookahead = s.unread.placeBehindMarker p := by
  have hstep := advance_advanced h
  have hplace := s.lookahead_advance
  unfold behindMarker Unread.placeBehindMarker
  generalize s.advance = r at hstep hplace
  cases hstep with
  | ended t hcoherent htext hlook =>
    rw [htext]
    exact hplace.trans (Unread.release_place htext)
  | failed fault t hcoherent htext hlook =>
    rw [htext]
    exact hplace.trans (Unread.release_place htext)
  | char c t hcoherent hleaves =>
    rw [hleaves.text]
    dsimp only
    split
    · next haccepted => rw [lookahead_collectRun _ p hcoherent, hleaves.afterRun haccepted]
    · rw [hplace, Unread.place_of_leaves hleaves]
      rfl

/-- What the rest of a token leaves in the place of lookahead when its
first character has been consumed. -/
theorem lookahead_tokenFrom (c : Char) (h : s.Coherent) (hs : s.lookahead = .empty) :
    (s.tokenFrom c).2.lookahead = s.unread.placeFrom c := by
  induction c using Lexeme.startCases with
  | left => exact hs.trans (Unread.placeFrom_of_complete rfl).symm
  | right => exact hs.trans (Unread.placeFrom_of_complete rfl).symm
  | ampersand => exact hs.trans (Unread.placeFrom_of_complete rfl).symm
  | nul => exact hs.trans (Unread.placeFrom_of_complete rfl).symm
  | backslash =>
    show s.control.2.lookahead = _
    rw [control_snd, Unread.placeFrom_backslash, lookahead_behindMarker _ h]
  | hash =>
    show s.argument.2.lookahead = _
    rw [argument_snd, Unread.placeFrom_hash, lookahead_behindMarker _ h]
  | percent =>
    rw [Unread.placeFrom_run rfl (Lexeme.first_percent _), ← not_endsComment]
    exact lookahead_collectRun [] _ h
  | blank c hblank =>
    rw [Unread.placeFrom_run rfl (Lexeme.first_of_blank _ hblank), tokenFrom_of_blank hblank]
    exact lookahead_collectRun [c] _ h
  | plain c hblank hplain =>
    rw [tokenFrom_of_plain hblank hplain, Unread.placeFrom_of_complete]
    · exact hs
    · rw [Lexeme.first_of_plain _ hblank hplain]
      rfl

/-- What a call for a token leaves in the place of lookahead. -/
theorem lookahead_nextToken (h : s.Coherent) :
    s.nextToken.2.lookahead = s.unread.placeBehindToken := by
  have hstep := advance_advanced h
  have hplace := s.lookahead_advance
  unfold nextToken
  generalize s.advance = r at hstep hplace
  cases hstep with
  | ended t hcoherent htext hlook =>
    unfold Unread.placeBehindToken
    rw [htext]
    exact hplace.trans (Unread.release_place htext)
  | failed fault t hcoherent htext hlook =>
    unfold Unread.placeBehindToken
    rw [htext]
    exact hplace.trans (Unread.release_place htext)
  | char c t hcoherent hleaves =>
    rw [Unread.place_of_leaves hleaves] at hplace
    rw [Unread.placeBehindToken_of_leaves hleaves]
    exact lookahead_tokenFrom c.val hcoherent hplace

end CharStream

end TexMath
