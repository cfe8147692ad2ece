/-
Texts put one behind the other: the tokens of `u ++ v`, from those of `u`
and those of `v`.

# What the second text can change

The lexemes of `u` in front of the last one are lexemes of `u ++ v`, and
the last one is read anew together with `v` (`split_append_last`). It
stays what it is when it stops at `v`, and then the lexemes of `v` follow
(`split_append`). When it wants the first character of `v` it takes that
character in, and perhaps more of them (`split_append_of_wants`): were it
no longer than before, it would have stopped.

# Why a longer lexeme shows

A token that has taken in a part of `v` may have the value it had before,
as the number does when `#0` meets a `0`. What differs is where the next
token stands: behind a longer lexeme every location is further on
(`Span.lt_afterAll`), so no token is found where the first token of `v`
ought to be. The condition for tokens to be put together is therefore
exact, whatever their values are (`tokenize_append_iff`).

# What stays in any case

A lexeme of `u` with text behind it was ended by a character of `u`, and
what comes later is never asked. So all tokens of `u` but the last one are
tokens of `u ++ v`, and in the place of the last one there is a token that
starts where it did, whatever it reads as (`tokenize_append_stable`).
-/
import TexMath.Proofs.Interruption

namespace TexMath

open Text

-- ============================================================ texts in a row

namespace Lexeme

variable {u v : List Char} {front : List Lexeme} {x : Lexeme}

/-- A lexeme that reaches the end of its text and wants what follows takes
a part of that in. -/
theorem first_append_of_wants {c : Char} {rest : List Char} (hend : (first c rest).2 = [])
    (hv : ¬ (first c rest).1.StopsAt v) :
    ∃ taken, taken ≠ [] ∧ (first c (rest ++ v)).1.text = c :: rest ++ taken := by
  obtain ⟨run, htext, hsplit, hstops, halways⟩ := first_cuts c (rest ++ v)
  -- a lexeme within the first text would be the one that the first text has on its own
  have hlong : ∀ mid, rest = run ++ mid → ¬ (first c (rest ++ v)).1.StopsAt (mid ++ v) := by
    intro mid hrest hmid
    have hsame := halways mid (stopsAt_of_append hmid)
    rw [← hrest] at hsame
    rw [hsame] at hend hv
    have hmid' : mid = [] := hend
    subst hmid'
    exact hv hmid
  rcases List.append_eq_append_iff.1 hsplit with ⟨taken, hrun, hleft⟩ | ⟨mid, hrest, hleft⟩
  · refine ⟨taken, ?_, by rw [htext, hrun, List.cons_append]⟩
    rintro rfl
    rw [List.append_nil] at hrun
    rw [List.nil_append] at hleft
    rw [← hleft] at hstops
    exact hlong [] (by rw [hrun, List.append_nil]) hstops
  · refine absurd ?_ (hlong mid hrest)
    rw [← hleft]
    exact hstops

/-- Of a text with another one behind it all lexemes stay but the last,
which is read anew. -/
theorem split_append_last (hu : split u = front ++ [x]) :
    ∃ c rest, x.text = c :: rest ∧ first c rest = (x, [])
      ∧ ∀ v, split (u ++ v) = front ++ split (c :: rest ++ v) := by
  fun_induction split u generalizing front with
  | case1 => simp at hu
  | case2 c rest ih =>
    have hall := first_append c rest
    cases front with
    | nil =>
      simp only [List.nil_append, List.cons.injEq] at hu
      obtain ⟨rfl, hlast⟩ := hu
      have hend : (first c rest).2 = [] := by
        by_contra hne
        exact split_ne_nil hne hlast
      rw [hend, List.append_nil] at hall
      exact ⟨c, rest, hall, Prod.ext rfl hend, fun v => rfl⟩
    | cons y front =>
      simp only [List.cons_append, List.cons.injEq] at hu
      obtain ⟨rfl, hlast⟩ := hu
      have hne : (first c rest).2 ≠ [] := by
        intro hend
        rw [hend, split] at hlast
        simp at hlast
      obtain ⟨d, more, htext, hx, hv⟩ := ih hlast
      refine ⟨d, more, htext, hx, fun v => ?_⟩
      -- a lexeme with text behind it stops there, whatever comes later
      have hsame := first_append_of_stopsAt (stopsAt_append v (first_stopsAt c rest) hne)
      rw [List.cons_append, split, hsame, hv]
      rfl

/-- Where the last lexeme of a text stops, the lexemes of another text may
follow. -/
theorem split_append (h : ∀ x ∈ (split u).getLast?, x.StopsAt v) :
    split (u ++ v) = split u ++ split v := by
  rcases eq_nil_or_split_concat u with rfl | ⟨front, x, hu⟩
  · simp [split]
  · obtain ⟨c, rest, htext, hx, hv⟩ := split_append_last hu
    have hstop : (first c rest).1.StopsAt ((first c rest).2 ++ v) := by
      rw [hx]
      exact h x (by rw [hu, List.getLast?_concat]; rfl)
    have hsame : first c (rest ++ v) = (x, v) := by
      rw [first_append_of_stopsAt hstop, hx]
      rfl
    rw [hv, hu, List.cons_append, split, hsame, List.append_assoc, List.singleton_append]

/-- Where the last lexeme of a text does not stop, it grows. -/
theorem split_append_of_wants (hu : split u = front ++ [x]) (hv : ¬ x.StopsAt v) :
    ∃ y later taken, split (u ++ v) = front ++ y :: later ∧ taken ≠ []
      ∧ y.text = x.text ++ taken := by
  obtain ⟨c, rest, htext, hx, happend⟩ := split_append_last hu
  have hend : (first c rest).2 = [] := by rw [hx]
  have hwants : ¬ (first c rest).1.StopsAt v := by rwa [hx]
  obtain ⟨taken, hne, hy⟩ := first_append_of_wants hend hwants
  refine ⟨(first c (rest ++ v)).1, split (first c (rest ++ v)).2, taken, ?_, hne, ?_⟩
  · rw [happend, List.cons_append, split]
  · rw [hy, htext]

end Lexeme

-- ========================================================= what a token takes

/-- The character behind the text would be taken in by its last token. -/
def Located.absorbs (text : List Char) (token : Located Token) (c : Char) : Bool :=
  match token.val with
  | .control name => name.toList.isEmpty || name.toList.all isLetter && isLetter c
  | .arg _ => isDigit c
  | .whitespace _ => isBlank c
  | .comment _ => c ≠ '\n' && c ≠ '\x00'
  -- a `#` that is the last character of the text has nothing to swallow yet
  | .error _ => token.span = Span.origin.afterAll text.dropLast
  | _ => false

/-- The last lexeme of a text wants the characters that its token absorbs. -/
theorem Lexeme.stopsAt_last_iff {front : List Char} {x : Lexeme} {token : Located Token}
    (hx : x ∈ split (front ++ x.text)) (hread : x.reading = .ok token.val)
    (hspan : token.span = Span.origin.afterAll front) (c : Char) (more : List Char) :
    x.StopsAt (c :: more) ↔ token.absorbs (front ++ x.text) c = false := by
  have hwants := wants_of_reading hread
  have refuses {p : Char → Bool} (hp : x.wants = some p) :
      x.StopsAt (c :: more) ↔ p c = false := by
    rw [stopsAt_iff hp]
    simp
  obtain ⟨t, s⟩ := token
  cases t with
  | control name =>
    by_cases hname : name.toList = []
    · rw [refuses (hwants.trans (if_pos hname))]
      simp [Located.absorbs, hname]
    · by_cases hall : name.toList.all isLetter = true
      · rw [refuses (hwants.trans ((if_neg hname).trans (if_pos hall)))]
        simp [Located.absorbs, hname, hall]
      · simp only [Located.absorbs, Bool.eq_false_iff.2 hall, List.isEmpty_eq_false_iff.2 hname]
        simp [stopsAt_of_wants_none _ (hwants.trans ((if_neg hname).trans (if_neg hall)))]
  | error cause =>
    have hlone : x.text = ['#'] ↔ s = Span.origin.afterAll (front ++ x.text).dropLast :=
      lone_marker_iff hx hread hspan
    by_cases hx' : x.text = ['#']
    · rw [refuses (hwants.trans (if_pos hx'))]
      simp [Located.absorbs, ← hlone.1 hx']
    · simp only [Located.absorbs, decide_eq_false_iff_not]
      simp [stopsAt_of_wants_none _ (hwants.trans (if_neg hx')), mt hlone.2 hx']
  | arg number => exact refuses hwants
  | whitespace text => exact refuses hwants
  | comment text => exact refuses hwants
  | _ => simp [Located.absorbs, stopsAt_of_wants_none _ hwants]

-- ============================================================= whole strings

variable {u v : String} {us vs : List (Located Token)}

/-- Tokens are put together where lexemes are. -/
theorem tokenize_append (hu : tokenize u = .ok us) (hv : tokenize v = .ok vs)
    (h : ∀ x ∈ (Lexeme.split u.toList).getLast?, x.StopsAt v.toList) :
    tokenize (u ++ v)
      = .ok (us ++ vs.map (Located.shift (Span.origin.afterAll u.toList))) := by
  rw [tokenize_eq_ok_iff] at *
  rw [String.toList_append, Lexeme.split_append h, Lexeme.readings_append, Lexeme.flatten_split,
    hu, Lexeme.readings_located _ hv]
  simp

/-- Tokens that are put together come from a lexeme that stops: behind a
longer one there is no token where the second string starts. -/
theorem stopsAt_of_tokenize_append (hu : tokenize u = .ok us) (hv : tokenize v = .ok vs)
    (hne : v ≠ "") {front : List Lexeme} {x : Lexeme}
    (hx : Lexeme.split u.toList = front ++ [x])
    (h : tokenize (u ++ v)
      = .ok (us ++ vs.map (Located.shift (Span.origin.afterAll u.toList)))) :
    x.StopsAt v.toList := by
  by_contra hstop
  rw [tokenize_eq_ok_iff] at *
  obtain ⟨y, later, taken, hsplit, htaken, hy⟩ := Lexeme.split_append_of_wants hx hstop
  have hlen := congrArg List.length hu
  rw [Lexeme.length_readings, List.length_map, hx, List.length_append, List.length_singleton]
    at hlen
  rw [String.toList_append, hsplit, ← List.singleton_append, ← List.append_assoc,
    Lexeme.readings_append, List.map_append (f := Except.ok)] at h
  obtain ⟨-, hlater⟩ := List.append_inj h (by simp [Lexeme.length_readings, hlen])
  cases vs with
  | nil =>
    -- a string that is not empty has a token
    exact hne (String.toList_eq_nil_iff.1 (Lexeme.eq_nil_of_readings hv))
  | cons t vs =>
    have hwhere := Lexeme.span_of_readings hlater
    have hfirst := Lexeme.span_of_readings hv
    rw [List.map_append, List.flatten_append, List.map_singleton, List.flatten_singleton, hy,
      ← List.append_assoc, Lexeme.flatten_of_split_concat hx, Span.afterAll_append] at hwhere
    refine Span.afterAll_ne _ htaken (hwhere.symm.trans ?_)
    show Span.shift _ t.span = _
    rw [hfirst, Span.shift_origin]

/-- Two strings have their tokens together, those of the second one moved
behind the first one, exactly when one of them is empty or the last token
of the first one does not absorb the first character of the second. -/
theorem tokenize_append_iff (hu : tokenize u = .ok us) (hv : tokenize v = .ok vs) :
    tokenize (u ++ v) = .ok (us ++ vs.map (Located.shift (Span.origin.afterAll u.toList)))
      ↔ u = "" ∨ v = "" ∨ ∃ t ∈ us.getLast?, ∃ c ∈ v.toList.head?,
          t.absorbs u.toList c = false := by
  rcases Lexeme.eq_nil_or_split_concat u.toList with hempty | ⟨front, x, hx⟩
  · refine iff_of_true (tokenize_append hu hv ?_) (.inl (String.toList_eq_nil_iff.1 hempty))
    simp [hempty, Lexeme.split]
  have hne : u ≠ "" := by
    rintro rfl
    simp [Lexeme.split] at hx
  have hstops : (∀ y ∈ (Lexeme.split u.toList).getLast?, y.StopsAt v.toList)
      ↔ x.StopsAt v.toList := by
    simp [hx]
  by_cases hv' : v = ""
  · subst hv'
    exact iff_of_true (tokenize_append hu hv (hstops.2 (Lexeme.stopsAt_nil x))) (.inr (.inl rfl))
  have hiff : tokenize (u ++ v)
      = .ok (us ++ vs.map (Located.shift (Span.origin.afterAll u.toList))) ↔ x.StopsAt v.toList :=
    ⟨stopsAt_of_tokenize_append hu hv hv' hx, fun h => tokenize_append hu hv (hstops.2 h)⟩
  -- the last token of the first string, and the first character of the second
  obtain ⟨early, t, lead, rfl, -, hval, hspan, hwhole⟩ :=
    Lexeme.readings_split_concat hx (tokenize_eq_ok_iff.1 hu)
  obtain ⟨c, more, hc⟩ := List.exists_cons_of_ne_nil (mt String.toList_eq_nil_iff.1 hv')
  have hmem : x ∈ Lexeme.split (lead ++ x.text) := by
    rw [hwhole, hx]
    exact List.mem_concat_self
  have habsorbs := Lexeme.stopsAt_last_iff hmem hval hspan c more
  rw [hwhole] at habsorbs
  rw [hiff, hc, habsorbs]
  simp [hne, hv']

/-- A name stops in front of a digit. -/
theorem tokenize_append_iff_name :
    tokenize "a\n\\b" = .ok [⟨.char "a", ⟨1, 1⟩⟩, ⟨.whitespace "\n", ⟨1, 2⟩⟩,
        ⟨.control "b", ⟨2, 1⟩⟩]
      ∧ tokenize "0\n&" = .ok [⟨.char "0", ⟨1, 1⟩⟩, ⟨.whitespace "\n", ⟨1, 2⟩⟩,
        ⟨.ampersand, ⟨2, 1⟩⟩]
      ∧ tokenize ("a\n\\b" ++ "0\n&") = .ok [⟨.char "a", ⟨1, 1⟩⟩, ⟨.whitespace "\n", ⟨1, 2⟩⟩,
        ⟨.control "b", ⟨2, 1⟩⟩, ⟨.char "0", ⟨2, 3⟩⟩, ⟨.whitespace "\n", ⟨2, 4⟩⟩,
        ⟨.ampersand, ⟨3, 1⟩⟩] := by
  have hu : tokenize "a\n\\b" = .ok [⟨.char "a", ⟨1, 1⟩⟩, ⟨.whitespace "\n", ⟨1, 2⟩⟩,
      ⟨.control "b", ⟨2, 1⟩⟩] := by decide +kernel
  have hv : tokenize "0\n&" = .ok [⟨.char "0", ⟨1, 1⟩⟩, ⟨.whitespace "\n", ⟨1, 2⟩⟩,
      ⟨.ampersand, ⟨2, 1⟩⟩] := by decide +kernel
  refine ⟨hu, hv, (tokenize_append_iff hu hv).2 (.inr (.inr ⟨_, rfl, '0', rfl, ?_⟩))⟩
  decide +kernel

-- ================================================================ more text

/-- Lexemes in front read as the tokens in front, and the lexeme behind
them reads as a token where they end. -/
theorem Lexeme.exists_of_readings_append {s : Span} {front later : List Lexeme} {x : Lexeme}
    {early tokens : List (Located Token)} (h : readings s (front ++ x :: later) = tokens.map .ok)
    (hfront : readings s front = early.map .ok) :
    ∃ token behind, tokens = early ++ token :: behind
      ∧ token.span = s.afterAll (front.map Lexeme.text).flatten := by
  rw [readings_append, hfront, eq_comm, List.map_eq_append_iff] at h
  obtain ⟨taken, left, rfl, htaken, hleft⟩ := h
  have hearly : taken = early := (List.map_inj_right fun _ _ => Except.ok.inj).1 htaken
  subst hearly
  cases left with
  | nil => cases hleft
  | cons token behind => exact ⟨token, behind, rfl, span_of_readings hleft.symm⟩

/-- When more text follows a string, all its tokens stay but the last one,
and in the place of that one there is a token that starts where it did. -/
theorem tokenize_append_stable {ws : List (Located Token)} (hu : tokenize u = .ok us)
    (huv : tokenize (u ++ v) = .ok ws) :
    us.dropLast <+: ws ∧ ∀ t ∈ us.getLast?, ∃ t' ∈ (ws)[us.length - 1]?, t'.span = t.span := by
  rw [tokenize_eq_ok_iff] at hu huv
  rcases Lexeme.eq_nil_or_split_concat u.toList with hempty | ⟨front, x, hx⟩
  · rw [hempty, Lexeme.split] at hu
    rw [List.map_eq_nil_iff.1 hu.symm]
    exact ⟨List.nil_prefix, by simp⟩
  · obtain ⟨early, t, lead, rfl, hfront, -, hspan, hlead⟩ := Lexeme.readings_split_concat hx hu
    obtain ⟨c, rest, -, -, happend⟩ := Lexeme.split_append_last hx
    rw [String.toList_append, happend, List.cons_append, Lexeme.split] at huv
    obtain ⟨token, behind, rfl, htoken⟩ := Lexeme.exists_of_readings_append huv hfront
    -- the last lexeme of the first string starts where the others end
    have hstart : (front.map Lexeme.text).flatten = lead :=
      List.append_cancel_right ((Lexeme.flatten_of_split_concat hx).trans hlead.symm)
    refine ⟨by simp, fun t' ht' => ⟨token, by simp, ?_⟩⟩
    rw [List.getLast?_concat, Option.mem_some_iff] at ht'
    rw [← ht', htoken, hspan, hstart]

/-- A name grows, and what is in front of it stays. -/
theorem tokenize_append_stable_name :
    tokenize "1\n\\b" = .ok [⟨.char "1", ⟨1, 1⟩⟩, ⟨.whitespace "\n", ⟨1, 2⟩⟩,
        ⟨.control "b", ⟨2, 1⟩⟩]
      ∧ tokenize ("1\n\\b" ++ "c#1") = .ok [⟨.char "1", ⟨1, 1⟩⟩, ⟨.whitespace "\n", ⟨1, 2⟩⟩,
        ⟨.control "bc", ⟨2, 1⟩⟩, ⟨.arg 1, ⟨2, 4⟩⟩]
      ∧ [⟨.char "1", ⟨1, 1⟩⟩, ⟨.whitespace "\n", ⟨1, 2⟩⟩]
        <+: [⟨.char "1", ⟨1, 1⟩⟩, ⟨.whitespace "\n", ⟨1, 2⟩⟩, ⟨.control "bc", ⟨2, 1⟩⟩,
          (⟨.arg 1, ⟨2, 4⟩⟩ : Located Token)] := by
  have hu : tokenize "1\n\\b" = .ok [⟨.char "1", ⟨1, 1⟩⟩, ⟨.whitespace "\n", ⟨1, 2⟩⟩,
      ⟨.control "b", ⟨2, 1⟩⟩] := by decide +kernel
  have huv : tokenize ("1\n\\b" ++ "c#1") = .ok [⟨.char "1", ⟨1, 1⟩⟩,
      ⟨.whitespace "\n", ⟨1, 2⟩⟩, ⟨.control "bc", ⟨2, 1⟩⟩, ⟨.arg 1, ⟨2, 4⟩⟩] := by
    decide +kernel
  exact ⟨hu, huv, (tokenize_append_stable hu huv).1⟩

end TexMath
