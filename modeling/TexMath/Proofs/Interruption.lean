/-
Sources that fail: what a run gives when the text comes in pieces, with
a failure of the source behind each piece but the last.

# The lexeme that is lost

A failure is met where a call looks at the source. A complete lexeme
looks no further than its own characters, so the failure is met by the
call behind it and costs nothing. The last lexeme of a piece that wants
more looks at what comes next and meets the failure there: its
characters are gone, and its token is lost. So of every piece the
tokens are left that its text has, without a last one that could still
grow (`Lexeme.completed`, `Located.mayGrow`).

# Behind the failure

A failure ends the call and not the run. The next call starts with an
empty place of lookahead at the location behind all characters that the
source has delivered, those of the lost token included, so the next
piece is read as a text of its own that has been moved there
(`Unread.outcomes_interrupted`). By induction on the pieces a whole run
has a closed form.
-/
import TexMath.Proofs.MaximalMunch

namespace TexMath

open Text

-- ============================================================ last elements

/-- The list without its last element when `p` holds of that. -/
def dropLastIf {α : Type} (p : α → Bool) (l : List α) : List α :=
  if l.getLast?.any p then l.dropLast else l

theorem dropLastIf_concat {α : Type} (p : α → Bool) (l : List α) (a : α) :
    dropLastIf p (l ++ [a]) = if p a then l else l ++ [a] := by
  unfold dropLastIf
  rw [List.getLast?_concat, List.dropLast_concat]
  rfl

-- ========================================================= complete lexemes

namespace Lexeme

variable {x : Lexeme} {later : List Lexeme}

/-- The lexemes without the last one when that wants more. -/
def completed (lexemes : List Lexeme) : List Lexeme :=
  dropLastIf (·.wants.isSome) lexemes

/-- Only the last lexeme can be lost, and it is not when it wants
nothing. -/
theorem completed_cons (h : x.wants = none ∨ later ≠ []) :
    completed (x :: later) = x :: completed later := by
  unfold completed
  rcases List.eq_nil_or_concat later with rfl | ⟨front, y, rfl⟩
  · rcases h with h | h
    · show dropLastIf _ ([] ++ [x]) = _
      rw [dropLastIf_concat, h]
      rfl
    · exact absurd rfl h
  · rw [List.concat_eq_append, ← List.cons_append, dropLastIf_concat, dropLastIf_concat]
    split <;> rfl

theorem completed_of_wants {p : Char → Bool} (h : x.wants = some p) : completed [x] = [] := by
  show dropLastIf _ ([] ++ [x]) = _
  rw [dropLastIf_concat, h]
  rfl

end Lexeme

-- ========================================================= interrupted runs

namespace Unread

/-- A lexeme that wants more at a failure is lost to it. -/
theorem outcomes_of_lost_lexeme {c : Char} {rest : List Char} (fault : String)
    (events : List Event) (s : Span) {p : Char → Bool}
    (hwants : (Lexeme.first c rest).1.wants = some p) (hlast : (Lexeme.first c rest).2 = []) :
    outcomes ⟨(c :: rest).map .char ++ .fail fault :: events, s⟩
      = .error (.source fault) :: outcomes ⟨events, s.afterAll (c :: rest)⟩ := by
  have hwhole : (Lexeme.first c rest).1.text = c :: rest := by
    have hall := Lexeme.first_append c rest
    rwa [hlast, List.append_nil] at hall
  apply outcomes_of_outcome
  rw [token_text c rest _ s rfl, finish_of_wants _ _ hwants, past_text _ _ _ s rfl, hlast, hwhole]
  rfl

/-- A run over a text with a failure behind it gives the readings of its
complete lexemes and the failure, and goes on behind both. -/
theorem outcomes_interrupted (text : List Char) (fault : String) (events : List Event) (s : Span) :
    outcomes ⟨text.map .char ++ .fail fault :: events, s⟩
      = Lexeme.readings s (Lexeme.completed (Lexeme.split text))
        ++ .error (.source fault) :: outcomes ⟨events, s.afterAll text⟩ := by
  fun_induction Lexeme.split text generalizing s with
  | case1 => exact outcomes_of_outcome (.error (.source fault)) rfl
  | case2 c rest ih =>
    by_cases hgo : (Lexeme.first c rest).1.wants = none ∨ (Lexeme.first c rest).2 ≠ []
    · have hkept :
          Lexeme.completed ((Lexeme.first c rest).1 :: Lexeme.split (Lexeme.first c rest).2)
          = (Lexeme.first c rest).1 :: Lexeme.completed (Lexeme.split (Lexeme.first c rest).2) :=
        Lexeme.completed_cons (hgo.imp_right Lexeme.split_ne_nil)
      have hwhole : s.afterAll (c :: rest)
          = (s.afterAll (Lexeme.first c rest).1.text).afterAll (Lexeme.first c rest).2 := by
        rw [← Span.afterAll_append, Lexeme.first_append]
      rw [outcomes_of_lexeme c rest _ s rfl (hgo.imp_right .inl), ih, hkept, hwhole]
      rfl
    · obtain ⟨hwanted, hlast⟩ := not_or.1 hgo
      obtain ⟨p, hwants⟩ := Option.ne_none_iff_exists'.1 hwanted
      have hlast : (Lexeme.first c rest).2 = [] := not_not.1 hlast
      rw [outcomes_of_lost_lexeme fault events s hwants hlast, hlast, Lexeme.split,
        Lexeme.completed_of_wants hwants]
      rfl

end Unread

-- ============================================================== lost tokens

/-- A token that could take in more characters when it is the last one
of the text. -/
def Located.mayGrow (text : List Char) (token : Located Token) : Bool :=
  match token.val with
  | .control name => name.toList.all isLetter
  | .arg _ | .whitespace _ | .comment _ => true
  | .error _ => token.span = Span.origin.afterAll text.dropLast
  | _ => false

/-- The tokens of a text without the last one when that may grow. -/
def doneTokens (text : List Char) (tokens : List (Located Token)) : List (Located Token) :=
  dropLastIf (Located.mayGrow text) tokens

namespace Lexeme

/-- A lexeme that reads as an error is a `#`, alone or with the character
that it swallows. -/
theorem text_of_error {text : List Char} {x : Lexeme} {cause : IllegalCharacter}
    (hx : x ∈ split text) (hread : x.reading = .ok (.error cause)) :
    x.text = ['#'] ∨ ∃ d, x.text = ['#', d] := by
  fun_induction split text with
  | case1 => cases hx
  | case2 c rest ih =>
    rcases List.mem_cons.1 hx with rfl | hx
    · have hmunch := munch_first hread
      generalize (first c rest).1.text = w at hmunch ⊢
      cases hmunch with
      | illegal rest hdigit =>
        cases rest with
        | nil => exact .inl rfl
        | cons d rest => exact .inr ⟨d, rfl⟩
    · exact ih hx

/-- The last lexeme of a text is a lone `#` exactly when its error stands
at the last character. -/
theorem lone_marker_iff {front : List Char} {x : Lexeme} {cause : IllegalCharacter} {s : Span}
    (hx : x ∈ split (front ++ x.text)) (hread : x.reading = .ok (.error cause))
    (hlocated : s = Span.origin.afterAll front) :
    x.text = ['#'] ↔ s = Span.origin.afterAll (front ++ x.text).dropLast := by
  rcases text_of_error hx hread with hlone | ⟨d, hpair⟩
  · rw [hlone, List.dropLast_concat, ← hlocated]
    exact ⟨fun _ => rfl, fun _ => rfl⟩
  · have hmoved : Span.origin.afterAll (front ++ ['#']) ≠ s := by
      rw [Span.afterAll_append, ← hlocated]
      exact s.after_ne '#'
    rw [hpair, List.append_cons, List.dropLast_concat]
    exact ⟨nofun, fun h => absurd h.symm hmoved⟩

/-- The last lexeme of a text wants more exactly when its token may
grow. -/
theorem wants_last {front : List Char} {x : Lexeme} {token : Located Token}
    (hx : x ∈ split (front ++ x.text)) (hread : x.reading = .ok token.val)
    (hlocated : token.span = Span.origin.afterAll front) :
    x.wants.isSome = token.mayGrow (front ++ x.text) := by
  obtain ⟨t, s⟩ := token
  rw [wants_of_reading hread]
  cases t with
  | control name =>
    show Option.isSome (if name.toList = [] then _ else _) = name.toList.all isLetter
    split
    · next hempty =>
      rw [hempty]
      rfl
    · split
      · next hletters =>
        rw [hletters]
        rfl
      · next hother => exact (Bool.eq_false_iff.2 hother).symm
  | error cause =>
    show Option.isSome (if x.text = ['#'] then _ else _)
      = decide (s = Span.origin.afterAll (front ++ x.text).dropLast)
    rw [decide_eq_decide.2 (lone_marker_iff hx hread hlocated).symm]
    split
    · next hlone => exact (decide_eq_true hlone).symm
    · next hpair => exact (decide_eq_false hpair).symm
  | _ => rfl

/-- The complete lexemes of a text read as the tokens that are done. -/
theorem readings_completed {text : List Char} {tokens : List (Located Token)}
    (h : readings .origin (split text) = tokens.map .ok) :
    readings .origin (completed (split text)) = (doneTokens text tokens).map .ok := by
  rcases eq_nil_or_split_concat text with rfl | ⟨lexemes, x, hlexed⟩
  · rw [split] at h ⊢
    rw [List.map_eq_nil_iff.1 h.symm]
    rfl
  · obtain ⟨front, token, lead, rfl, hcomplete, hread, hlocated, hwhole⟩ :=
      readings_split_concat hlexed h
    have hmember : x ∈ split (lead ++ x.text) := by
      rw [hwhole, hlexed]
      exact List.mem_concat_self
    have hgrows := wants_last hmember hread hlocated
    rw [hwhole] at hgrows
    rw [hlexed] at h
    unfold completed doneTokens
    rw [hlexed, dropLastIf_concat, dropLastIf_concat, hgrows]
    split
    · exact hcomplete
    · exact h

end Lexeme

-- ========================================================== failing sources

/-- A piece of text with the failure of the source behind it. -/
structure Segment where
  text : String
  fault : String
deriving DecidableEq, Repr

/-- What a source does that delivers the piece and fails. -/
def Segment.events (segment : Segment) : List Event :=
  segment.text.toList.map .char ++ [.fail segment.fault]

/-- The source that fails behind every segment and ends behind the last
text. -/
def Source.failing (segments : List Segment) (last : String) (hint : Hint) : Source :=
  .ofEvents (segments.flatMap Segment.events ++ last.toList.map .char) hint

/-- The tokens of a text without over-long numbers. -/
def tokensOf (text : String) : List (Located Token) :=
  match tokenize text with
  | .ok tokens => tokens
  | .error _ => []

/-- The tokens of each segment that are done, each time with the failure
behind them, and all tokens of the last text; every text starts where the
characters in front of it lead. -/
def interrupted (base : Span) (last : String) : List Segment → List (Except Fault (Located Token))
  | [] => (tokensOf last).map fun token => .ok (token.shift base)
  | segment :: later =>
    (doneTokens segment.text.toList (tokensOf segment.text)).map
        (fun token => .ok (token.shift base))
      ++ .error (.source segment.fault)
      :: interrupted (base.afterAll segment.text.toList) last later

theorem readings_tokensOf {text : String} (h : (tokenize text).isOk = true) :
    Lexeme.readings .origin (Lexeme.split text.toList) = (tokensOf text).map .ok := by
  unfold tokensOf
  cases hrun : tokenize text with
  | ok tokens => exact tokenize_eq_ok_iff.1 hrun
  | error fault =>
    rw [hrun] at h
    cases h

/-- From wherever a run over a failing source starts, it has the closed
form. -/
theorem Unread.outcomes_segments {segments : List Segment} {last : String} (base : Span)
    (h : ∀ text ∈ last :: segments.map Segment.text, (tokenize text).isOk = true) :
    outcomes ⟨segments.flatMap Segment.events ++ last.toList.map .char, base⟩
      = interrupted base last segments := by
  induction segments generalizing base with
  | nil =>
    show outcomes ⟨last.toList.map .char, base⟩ = _
    rw [outcomes_text]
    exact Lexeme.readings_located base (readings_tokensOf (h last List.mem_cons_self))
  | cons segment later ih =>
    have hread := readings_tokensOf
      (h segment.text (List.mem_cons_of_mem _ List.mem_cons_self))
    have hbehind : ∀ text ∈ last :: later.map Segment.text, (tokenize text).isOk = true := by
      intro text hmember
      apply h
      rcases List.mem_cons.1 hmember with rfl | hmember
      · exact List.mem_cons_self
      · exact List.mem_cons_of_mem _ (List.mem_cons_of_mem _ hmember)
    have hsplit : (segment :: later).flatMap Segment.events ++ last.toList.map Event.char
        = segment.text.toList.map .char ++ .fail segment.fault
          :: (later.flatMap Segment.events ++ last.toList.map .char) := by
      rw [List.flatMap_cons, List.append_assoc]
      unfold Segment.events
      rw [List.append_assoc]
      rfl
    rw [hsplit, outcomes_interrupted, ih _ hbehind,
      Lexeme.readings_located base (Lexeme.readings_completed hread)]
    rfl

/-- Over a source that fails and goes on, the calls for tokens give the
tokens of each piece that are done when it fails, every failure once and
in its place, and the tokens of the last piece, all where they stand. -/
theorem outcomes_failing {segments : List Segment} {last : String} (hint : Hint) (debug : Bool)
    (h : ∀ text ∈ last :: segments.map Segment.text, (tokenize text).isOk = true) :
    (Lexer.ofSource (.failing segments last hint) debug).outcomes
      = interrupted .origin last segments := by
  rw [Lexer.outcomes_eq (CharStream.coherent_ofSource _)]
  exact Unread.outcomes_segments .origin h

theorem outcomes_failing_mixed :
    (∀ text ∈ ["c%d", "a\\b", "\n#1 ", "##"], (tokenize text).isOk = true) ∧
      (Lexer.ofSource
          (.failing [⟨"a\\b", "x"⟩, ⟨"\n#1 ", "y"⟩, ⟨"##", "z"⟩] "c%d" .exact) false).outcomes
        = [.ok ⟨.char "a", ⟨1, 1⟩⟩, .error (.source "x"), .ok ⟨.whitespace "\n", ⟨1, 4⟩⟩,
          .ok ⟨.arg 1, ⟨2, 1⟩⟩, .error (.source "y"), .ok ⟨.error ⟨"#"⟩, ⟨2, 4⟩⟩,
          .error (.source "z"), .ok ⟨.char "c", ⟨2, 6⟩⟩, .ok ⟨.comment "d", ⟨2, 7⟩⟩] :=
  ⟨by decide +kernel, (outcomes_failing .exact false (by decide +kernel)).trans (by decide +kernel)⟩

end TexMath
