/-
Laws of splitting: the lexemes of a text and their readings.

# Lexemes and text

The lexemes of a text make it up and none of them is empty, so a text
that is not empty has a last lexeme, and the others make up what is in
front of that.

# Readings

A reading depends on the lexemes in front of it only through the location
behind them: lexemes in a row read as they do apart, the second ones from
where the first ones end (`readings_append`), and lexemes that are moved
read as before, moved (`readings_shift`).
-/
import TexMath.Lexeme
import TexMath.Proofs.Location

namespace TexMath.Lexeme

variable {x : Lexeme} {front : List Lexeme} {text : List Char} {s : Span}
  {token : Located Token} {tokens : List (Located Token)}

-- ========================================================= lexemes and text

theorem flatten_split (text : List Char) : ((split text).map Lexeme.text).flatten = text := by
  fun_induction split text with
  | case1 => rfl
  | case2 c rest ih =>
    rw [List.map_cons, List.flatten_cons, ih]
    exact first_append c rest

theorem text_ne_nil_of_mem_split (h : x ∈ split text) : x.text ≠ [] := by
  fun_induction split text with
  | case1 => cases h
  | case2 c rest ih =>
    rcases List.mem_cons.1 h with rfl | h
    · exact first_ne_nil c rest
    · exact ih h

theorem split_ne_nil (h : text ≠ []) : split text ≠ [] := by
  cases text with
  | nil => exact absurd rfl h
  | cons c rest =>
    rw [split]
    exact List.cons_ne_nil _ _

theorem split_eq_nil_iff : split text = [] ↔ text = [] := by
  constructor
  · exact fun hnone => Decidable.byContradiction fun hne => split_ne_nil hne hnone
  · rintro rfl
    rw [split]

/-- A text that is not empty has a last lexeme. -/
theorem eq_nil_or_split_concat (text : List Char) :
    text = [] ∨ ∃ front x, split text = front ++ [x] := by
  rcases List.eq_nil_or_concat (split text) with hnone | ⟨front, x, hlast⟩
  · exact .inl (split_eq_nil_iff.1 hnone)
  · rw [List.concat_eq_append] at hlast
    exact .inr ⟨front, x, hlast⟩

theorem flatten_of_split_concat (h : split text = front ++ [x]) :
    (front.map Lexeme.text).flatten ++ x.text = text := by
  have hwhole := flatten_split text
  rwa [h, List.map_append, List.flatten_append, List.map_singleton,
    List.flatten_singleton] at hwhole

-- ================================================================= readings

theorem length_readings (s : Span) (lexemes : List Lexeme) :
    (readings s lexemes).length = lexemes.length := by
  induction lexemes generalizing s with
  | nil => rfl
  | cons x later ih =>
    show (readings _ later).length + 1 = later.length + 1
    rw [ih]

/-- A located token is the reading of its lexeme, and stands where that
starts. -/
theorem reading_of_located (h : x.reading.map (⟨·, s⟩) = .ok token) :
    x.reading = .ok token.val ∧ token.span = s := by
  cases hread : x.reading with
  | error fault =>
    rw [hread] at h
    cases h
  | ok t =>
    rw [hread] at h
    cases h
    exact ⟨rfl, rfl⟩

/-- Tokens start where their lexemes do. -/
theorem span_of_readings {lexemes : List Lexeme}
    (h : readings s lexemes = (token :: tokens).map .ok) : token.span = s := by
  cases lexemes with
  | nil => cases h
  | cons x lexemes => exact (reading_of_located (List.cons.inj h).1).2

theorem ne_nil_of_readings (h : readings s (split text) = (token :: tokens).map .ok) :
    text ≠ [] := by
  rintro rfl
  rw [split] at h
  cases h

theorem eq_nil_of_readings (h : readings s (split text) = ([] : List (Located Token)).map .ok) :
    text = [] := by
  have hlength := congrArg List.length h
  rw [length_readings] at hlength
  exact split_eq_nil_iff.1 (List.length_eq_zero_iff.1 hlength)

theorem readings_append (s : Span) (lexemes more : List Lexeme) :
    readings s (lexemes ++ more)
      = readings s lexemes ++ readings (s.afterAll (lexemes.map Lexeme.text).flatten) more := by
  induction lexemes generalizing s with
  | nil => rfl
  | cons x lexemes ih =>
    rw [List.map_cons, List.flatten_cons, Span.afterAll_append]
    show _ :: readings _ (lexemes ++ more) = _ :: (readings _ lexemes ++ _)
    rw [ih]

/-- The last lexeme of a text reads as the last token, located behind the
other lexemes. -/
theorem readings_split_concat (hx : split text = front ++ [x])
    (h : readings s (split text) = tokens.map .ok) :
    ∃ early token lead, tokens = early ++ [token] ∧ readings s front = early.map .ok
      ∧ x.reading = .ok token.val ∧ token.span = s.afterAll lead ∧ lead ++ x.text = text := by
  rw [hx, readings_append] at h
  rcases List.eq_nil_or_concat tokens with rfl | ⟨early, token, rfl⟩
  · exact absurd h (List.append_ne_nil_of_right_ne_nil _ (List.cons_ne_nil _ _))
  · rw [List.concat_eq_append, List.map_append] at h
    obtain ⟨hothers, hlast⟩ := List.append_inj' h rfl
    obtain ⟨hread, hlocated⟩ := reading_of_located (List.cons.inj hlast).1
    exact ⟨early, token, _, List.concat_eq_append, hothers, hread, hlocated,
      flatten_of_split_concat hx⟩

theorem readings_shift (base : Span) (lexemes : List Lexeme) (h : 1 ≤ s.line) :
    readings (base.shift s) lexemes
      = (readings s lexemes).map (Except.map (Located.shift base)) := by
  induction lexemes generalizing s with
  | nil => rfl
  | cons x lexemes ih =>
    have hlater := Int.le_trans h (s.line_le_afterAll x.text)
    show _ :: readings ((base.shift s).afterAll x.text) lexemes
      = Except.map _ (x.reading.map _) :: (readings (s.afterAll x.text) lexemes).map _
    rw [Span.afterAll_shift base x.text h, ih hlater]
    cases x.reading <;> rfl

theorem readings_located {lexemes : List Lexeme} (base : Span)
    (h : readings .origin lexemes = tokens.map .ok) :
    readings base lexemes = tokens.map fun token => .ok (token.shift base) := by
  have hmoved := readings_shift (s := .origin) base lexemes (Int.le_refl 1)
  rw [Span.shift_origin] at hmoved
  rw [hmoved, h, List.map_map]
  rfl

end TexMath.Lexeme
