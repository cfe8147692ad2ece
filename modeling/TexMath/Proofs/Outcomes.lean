/-
Whole runs: the outcomes of calling for tokens until the end is found.

A call that fails leaves a lexer behind that can be called again, so a
run has more to say than the list of its tokens: `Lexer.outcomes` has
an entry for every call up to the first one that finds the end, be it
a token or a fault. Every such call makes the unread events fewer, which
bounds the run.

# Runs over the view

The outcomes of a coherent lexer are those of its view
(`Lexer.outcomes_eq`), and over a plain text they are the readings of
its lexemes, over-long numbers in their places (`outcomes_ofString`).
Taking all tokens of a string is such a run without a fault
(`tokenize_eq_ok_iff`).
-/
import TexMath.Proofs.Location
import TexMath.Proofs.Reading

namespace TexMath

-- ======================================================= runs over the view

namespace Unread

variable {u v : Unread}

/-- A call that does not find the end leaves fewer events. -/
theorem length_lt_of_token {answer : Except Fault (Option (Located Token))}
    (h : u.token = (answer, v)) (hfound : answer ≠ .ok none) :
    v.events.length < u.events.length := by
  have hall := Event.leading_append_behind u.events
  unfold token at h
  split at h
  · next htext =>
    obtain ⟨events, position⟩ := u
    cases events with
    | nil => exact absurd (Prod.mk.inj h).1.symm hfound
    | cons e rest =>
      cases e with
      | char c => cases htext
      | stop => exact absurd (Prod.mk.inj h).1.symm hfound
      | fail text =>
        rw [← (Prod.mk.inj h).2]
        exact Nat.lt_succ_self _
  · next c rest htext =>
    have hshorter := Lexeme.length_first_le c rest
    have htotal := congrArg List.length hall
    rw [show Event.leading u.events = c :: rest from htext] at htotal
    simp only [List.length_append, List.length_map, List.length_cons] at htotal
    have hleft : (u.past (Lexeme.first c rest).1.text (Lexeme.first c rest).2).events.length
        < u.events.length := by
      simp only [past, behind, List.length_append, List.length_map]
      omega
    rw [← (Prod.mk.inj h).2]
    simp only [finish]
    split
    · exact Nat.lt_of_le_of_lt (length_look_le _ _) hleft
    · exact hleft

/-- The outcomes of calls for tokens, up to the call that finds the end. -/
def outcomes (u : Unread) : List (Except Fault (Located Token)) :=
  match _h : u.token with
  | (.ok (some token), v) => .ok token :: outcomes v
  | (.ok none, _) => []
  | (.error fault, v) => .error fault :: outcomes v
termination_by u.events.length
decreasing_by all_goals exact length_lt_of_token _h (by intro h; cases h)

theorem outcomes_of_end (h : u.token = (.ok none, v)) : u.outcomes = [] := by
  rw [outcomes]
  split
  · next h' => rw [h] at h'; cases h'
  · rfl
  · next h' => rw [h] at h'; cases h'

theorem outcomes_of_outcome (outcome : Except Fault (Located Token))
    (h : u.token = (outcome.map some, v)) : u.outcomes = outcome :: v.outcomes := by
  rw [outcomes]
  split
  · next h' =>
    rw [h] at h'
    cases outcome <;> cases h'
    rfl
  · next h' =>
    rw [h] at h'
    cases outcome <;> cases h'
  · next h' =>
    rw [h] at h'
    cases outcome <;> cases h'
    rfl

-- ===================================================== runs over known text

theorem past_text (text taken later : List Char) {tail : List Event} (s : Span)
    (h : Event.leading tail = []) :
    past taken later ⟨text.map .char ++ tail, s⟩ = ⟨later.map .char ++ tail, s.afterAll taken⟩ := by
  have hall := Event.leading_append_behind tail
  rw [h] at hall
  unfold past behind
  rw [Event.behind_append]
  show (⟨later.map .char ++ Event.behind tail, s.afterAll taken⟩ : Unread) = _
  rw [show Event.behind tail = tail from hall]

/-- Looking behind a lexeme changes nothing when a character follows, or
when nothing ever does. -/
theorem look_text {α : Type} (answer : Except Fault α) {later : List Char} {tail : List Event}
    (s : Span) (hgo : later ≠ [] ∨ tail = []) :
    look answer ⟨later.map .char ++ tail, s⟩ = (answer, ⟨later.map .char ++ tail, s⟩) := by
  cases later with
  | cons d later => rfl
  | nil =>
    rcases hgo with hgo | rfl
    · exact absurd rfl hgo
    · rfl

/-- The token of a known text is its first lexeme. -/
theorem token_text (c : Char) (rest : List Char) (tail : List Event) (s : Span)
    (h : Event.leading tail = []) :
    token ⟨(c :: rest).map .char ++ tail, s⟩
      = (finish (Lexeme.first c rest) (Lexeme.first c rest).1.text
          ⟨(c :: rest).map .char ++ tail, s⟩).map fun token => some ⟨token, s⟩ := by
  have htext : text ⟨(c :: rest).map .char ++ tail, s⟩ = c :: rest := by
    unfold Unread.text
    rw [Event.leading_append, h, List.append_nil]
  unfold token
  rw [htext]

/-- A call for a lexeme that need not look behind the text gives its
reading and leaves the rest. -/
theorem token_of_lexeme (c : Char) (rest : List Char) (tail : List Event) (s : Span)
    (h : Event.leading tail = [])
    (hgo : (Lexeme.first c rest).1.wants = none ∨ (Lexeme.first c rest).2 ≠ [] ∨ tail = []) :
    token ⟨(c :: rest).map .char ++ tail, s⟩
      = (((Lexeme.first c rest).1.reading.map (⟨·, s⟩)).map some,
        ⟨(Lexeme.first c rest).2.map .char ++ tail,
          s.afterAll (Lexeme.first c rest).1.text⟩) := by
  have hfinished : finish (Lexeme.first c rest) (Lexeme.first c rest).1.text
      ⟨(c :: rest).map .char ++ tail, s⟩
      = ((Lexeme.first c rest).1.reading, ⟨(Lexeme.first c rest).2.map .char ++ tail,
          s.afterAll (Lexeme.first c rest).1.text⟩) := by
    rw [← past_text (c :: rest) _ _ s h]
    cases hwanted : (Lexeme.first c rest).1.wants with
    | none => exact finish_of_complete _ _ hwanted
    | some p =>
      rw [finish_of_wants _ _ hwanted, past_text _ _ _ s h]
      rw [hwanted] at hgo
      exact look_text _ _ (hgo.resolve_left (Option.some_ne_none p))
  rw [token_text c rest tail s h, hfinished]
  cases (Lexeme.first c rest).1.reading <;> rfl

/-- A lexeme that need not look behind the text is an outcome of its
own, and the run goes on behind it. -/
theorem outcomes_of_lexeme (c : Char) (rest : List Char) (tail : List Event) (s : Span)
    (h : Event.leading tail = [])
    (hgo : (Lexeme.first c rest).1.wants = none ∨ (Lexeme.first c rest).2 ≠ [] ∨ tail = []) :
    outcomes ⟨(c :: rest).map .char ++ tail, s⟩
      = (Lexeme.first c rest).1.reading.map (⟨·, s⟩)
        :: outcomes ⟨(Lexeme.first c rest).2.map .char ++ tail,
            s.afterAll (Lexeme.first c rest).1.text⟩ :=
  outcomes_of_outcome _ (token_of_lexeme c rest tail s h hgo)

/-- The run over a plain text gives the readings of its lexemes. -/
theorem outcomes_text (text : List Char) (s : Span) :
    outcomes ⟨text.map .char, s⟩ = Lexeme.readings s (Lexeme.split text) := by
  fun_induction Lexeme.split text generalizing s with
  | case1 => exact outcomes_of_end rfl
  | case2 c rest ih =>
    have hstep := outcomes_of_lexeme c rest [] s rfl (.inr (.inr rfl))
    rw [List.append_nil, List.append_nil, ih] at hstep
    exact hstep

end Unread

-- ================================================================= progress

namespace CharStream

theorem size_lt_of_advance_error {s t : CharStream} {fault : Fault}
    (h : s.advance = (.error fault, t)) : t.size < s.size := by
  obtain ⟨⟨⟨events, hint, pulled⟩, position⟩, lookahead⟩ := s
  cases lookahead with
  | held c => cases h
  | ended => cases h
  | empty =>
    cases events with
    | nil => cases h
    | cons e rest =>
      cases e with
      | char c => cases h
      | stop => cases h
      | fail text =>
        rw [← (Prod.mk.inj h).2]
        exact Nat.lt_succ_self _

theorem size_lt_of_nextToken_error {s t : CharStream} {fault : Fault}
    (h : s.nextToken = (.error fault, t)) : t.size < s.size := by
  unfold nextToken at h
  split at h
  · cases (Prod.mk.inj h).1
  · next c u hu =>
    rw [← (Prod.mk.inj h).2]
    exact Nat.lt_of_le_of_lt (size_tokenFrom_le c.val u) (size_lt_of_advance hu)
  · next fault' u hu =>
    rw [← (Prod.mk.inj h).2]
    exact size_lt_of_advance_error hu

end CharStream

-- ======================================================== runs of the lexer

/-- The fault of an outcome that has one. -/
def faultOf? {α : Type} : Except Fault α → Option Fault
  | .ok _ => none
  | .error fault => some fault

namespace Lexer

variable {lexer later : Lexer}

/-- The log is no part of what a call answers. -/
theorem nextToken_fst (lexer : Lexer) : lexer.nextToken.1 = lexer.chars.nextToken.1 := by
  unfold nextToken
  split
  · next h => rw [h]
  · next h => rw [h]
  · next h => rw [h]

theorem chars_nextToken (lexer : Lexer) :
    lexer.nextToken.2.chars = lexer.chars.nextToken.2 := by
  unfold nextToken
  split
  · next h => rw [h, chars_logged]
  · next h => rw [h]
  · next h => rw [h]

theorem size_lt_of_outcome {answer : Except Fault (Option (Located Token))}
    (h : lexer.nextToken = (answer, later)) (hfound : answer ≠ .ok none) :
    later.chars.size < lexer.chars.size := by
  have hfst := nextToken_fst lexer
  have hchars := chars_nextToken lexer
  rw [h] at hfst hchars
  have hstep : lexer.chars.nextToken = (answer, later.chars) := Prod.ext hfst.symm hchars.symm
  rcases answer with fault | token
  · exact CharStream.size_lt_of_nextToken_error hstep
  · cases token with
    | none => exact absurd rfl hfound
    | some token => exact CharStream.size_lt_of_nextToken hstep

/-- The outcomes of calls for tokens, up to the call that finds the end. -/
def outcomes (lexer : Lexer) : List (Except Fault (Located Token)) :=
  match _h : lexer.nextToken with
  | (.ok (some token), later) => .ok token :: outcomes later
  | (.ok none, _) => []
  | (.error fault, later) => .error fault :: outcomes later
termination_by lexer.chars.size
decreasing_by all_goals exact size_lt_of_outcome _h (by intro h; cases h)

/-- A coherent lexer is called with the outcome that its view gives, and
stays coherent. -/
theorem token_unread (h : lexer.chars.Coherent) :
    lexer.chars.unread.token = (lexer.nextToken.1, lexer.nextToken.2.chars.unread)
      ∧ lexer.nextToken.2.chars.Coherent := by
  have hfollows := CharStream.nextToken_follows h
  rw [nextToken_fst, chars_nextToken]
  exact ⟨Prod.ext hfollows.answer.symm hfollows.unread.symm, hfollows.coherent⟩

/-- The run of a coherent lexer is the run over its view. -/
theorem outcomes_eq (h : lexer.chars.Coherent) : lexer.outcomes = lexer.chars.unread.outcomes := by
  have hstep := token_unread h
  fun_induction outcomes lexer with
  | case1 lexer token later hcall ih =>
    rw [hcall] at hstep
    rw [Unread.outcomes_of_outcome (.ok token) hstep.1]
    rw [ih hstep.2 (token_unread hstep.2)]
  | case2 lexer later hcall =>
    rw [hcall] at hstep
    rw [Unread.outcomes_of_end hstep.1]
  | case3 lexer fault later hcall ih =>
    rw [hcall] at hstep
    rw [Unread.outcomes_of_outcome (.error fault) hstep.1]
    rw [ih hstep.2 (token_unread hstep.2)]

/-- Over a string the outcomes are the readings of its lexemes. -/
theorem outcomes_ofString (code : String) (debug : Bool) :
    (ofString code debug).outcomes = Lexeme.readings .origin (Lexeme.split code.toList) := by
  rw [outcomes_eq (CharStream.coherent_ofSource _)]
  exact Unread.outcomes_text code.toList .origin

theorem outcomes_of_end (h : lexer.nextToken = (.ok none, later)) : lexer.outcomes = [] := by
  rw [outcomes]
  split
  · next h' => rw [h] at h'; cases h'
  · rfl
  · next h' => rw [h] at h'; cases h'

theorem outcomes_of_outcome (outcome : Except Fault (Located Token))
    (h : lexer.nextToken = (outcome.map some, later)) :
    lexer.outcomes = outcome :: later.outcomes := by
  rw [outcomes]
  split
  · next h' =>
    rw [h] at h'
    cases outcome <;> cases h'
    rfl
  · next h' =>
    rw [h] at h'
    cases outcome <;> cases h'
  · next h' =>
    rw [h] at h'
    cases outcome <;> cases h'
    rfl

/-- The tokens that are left can all be taken, behind the ones `found`,
exactly when no call fails. -/
theorem collect_eq_ok_iff {found tokens : List (Located Token)} :
    (lexer.collect found).1 = .ok tokens
      ↔ ∃ more, lexer.outcomes = more.map .ok ∧ tokens = found.reverse ++ more := by
  fun_induction collect found lexer with
  | case1 found lexer token later hcall ih =>
    rw [ih, outcomes_of_outcome (.ok token) hcall]
    constructor
    · intro h
      obtain ⟨more, hrun, rfl⟩ := h
      refine ⟨token :: more, ?_, ?_⟩
      · rw [hrun, List.map_cons]
      · rw [List.reverse_cons, List.append_assoc]
        rfl
    · intro h
      obtain ⟨more, hrun, rfl⟩ := h
      cases more with
      | nil => cases hrun
      | cons first more =>
        rw [List.map_cons] at hrun
        obtain ⟨hsame, hbehind⟩ := List.cons.inj hrun
        cases hsame
        refine ⟨more, hbehind, ?_⟩
        rw [List.reverse_cons, List.append_assoc]
        rfl
  | case2 found lexer later hcall =>
    rw [outcomes_of_end hcall]
    constructor
    · intro h
      cases h
      exact ⟨[], rfl, (List.append_nil _).symm⟩
    · intro h
      obtain ⟨more, hrun, rfl⟩ := h
      rw [List.map_eq_nil_iff.1 hrun.symm, List.append_nil]
  | case3 found lexer fault later hcall =>
    rw [outcomes_of_outcome (.error fault) hcall]
    constructor
    · intro h
      cases h
    · intro h
      obtain ⟨more, hrun, rfl⟩ := h
      cases more <;> cases hrun

/-- Taking the tokens that are left fails as the first call does that
fails. -/
theorem collect_eq_error_iff {found : List (Located Token)} {fault : Fault} :
    (lexer.collect found).1 = .error fault ↔ lexer.outcomes.findSome? faultOf? = some fault := by
  fun_induction collect found lexer with
  | case1 found lexer token later hcall ih =>
    rw [ih, outcomes_of_outcome (.ok token) hcall, List.findSome?_cons]
    rfl
  | case2 found lexer later hcall =>
    rw [outcomes_of_end hcall]
    simp
  | case3 found lexer other later hcall =>
    rw [outcomes_of_outcome (.error other) hcall, List.findSome?_cons]
    simp [faultOf?]

theorem rest_eq_ok_iff {tokens : List (Located Token)} :
    lexer.rest.1 = .ok tokens ↔ lexer.outcomes = tokens.map .ok := by
  unfold rest
  rw [collect_eq_ok_iff]
  constructor
  · intro h
    obtain ⟨more, hrun, rfl⟩ := h
    exact hrun
  · intro hrun
    exact ⟨tokens, hrun, rfl⟩

end Lexer

/-- A string has the tokens that the lexemes of its text read as, if all
of them do. -/
theorem tokenize_eq_ok_iff {code : String} {tokens : List (Located Token)} :
    tokenize code = .ok tokens
      ↔ Lexeme.readings .origin (Lexeme.split code.toList) = tokens.map .ok := by
  unfold tokenize
  rw [Lexer.rest_eq_ok_iff, Lexer.outcomes_ofString]

/-- The first fault that the lexemes of a text read as. -/
def Lexeme.fault? (text : List Char) : Option Fault :=
  (split text).findSome? fun x => faultOf? x.reading

theorem Lexeme.findSome?_readings (s : Span) (lexemes : List Lexeme) :
    (readings s lexemes).findSome? faultOf? = lexemes.findSome? fun x => faultOf? x.reading := by
  induction lexemes generalizing s with
  | nil => rfl
  | cons x later ih =>
    rw [readings, List.findSome?_cons, List.findSome?_cons, ih]
    cases x.reading <;> rfl

/-- A string without tokens has the first fault of its lexemes. -/
theorem tokenize_eq_error_iff {code : String} {fault : Fault} :
    tokenize code = .error fault ↔ Lexeme.fault? code.toList = some fault := by
  unfold tokenize Lexer.rest Lexeme.fault?
  rw [Lexer.collect_eq_error_iff, Lexer.outcomes_ofString, Lexeme.findSome?_readings]

end TexMath
