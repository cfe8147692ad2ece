/-
Laws of locations: how the location behind a text is put together from
its parts, and what moving a text does to the locations in it.

# Moving a text

`Span.shift base` sends the locations of a text that starts at the
origin to those of the same text starting at `base`. The column of a
location is moved on the first line only, so the shift commutes with
`Span.after` for two different reasons: on the first line both sides
add one to the same sum, and behind a newline both sides stand in
column one of a later line. The second reason needs a location that is
not above the first line (`after_shift`); every location of a text
meets that (`line_le_afterAll`).
-/
import TexMath.Span

namespace TexMath

namespace Span

-- ======================================================= runs of characters

@[simp]
theorem afterAll_cons (s : Span) (c : Char) (text : List Char) :
    s.afterAll (c :: text) = (s.after c).afterAll text := rfl

theorem afterAll_append (s : Span) (text more : List Char) :
    s.afterAll (text ++ more) = (s.afterAll text).afterAll more :=
  List.foldl_append

theorem line_le_after (s : Span) (c : Char) : s.line ≤ (s.after c).line := by
  unfold after
  split
  · show s.line ≤ s.line + 1
    omega
  · exact Int.le_refl _

theorem line_le_afterAll (s : Span) (text : List Char) : s.line ≤ (s.afterAll text).line := by
  induction text generalizing s with
  | nil => exact Int.le_refl _
  | cons c text ih => exact Int.le_trans (s.line_le_after c) (ih (s.after c))

theorem lt_irrefl (s : Span) : ¬ s < s := by
  rw [lt_def]
  omega

theorem lt_trans {a b c : Span} (hab : a < b) (hbc : b < c) : a < c := by
  rw [lt_def] at *
  omega

theorem lt_after (s : Span) (c : Char) : s < s.after c := by
  rw [lt_def]
  unfold after
  by_cases hc : c = '\n'
  · rw [if_pos hc]
    exact .inl (Int.lt_succ s.line)
  · rw [if_neg hc]
    exact .inr ⟨rfl, Int.lt_succ s.column⟩

/-- Behind a text the location is further on, unless the text is empty. -/
theorem lt_afterAll (s : Span) {text : List Char} (h : text ≠ []) : s < s.afterAll text := by
  induction text generalizing s with
  | nil => exact absurd rfl h
  | cons c text ih =>
    by_cases hrest : text = []
    · subst hrest
      exact s.lt_after c
    · exact lt_trans (s.lt_after c) (ih (s.after c) hrest)

theorem afterAll_ne (s : Span) {text : List Char} (h : text ≠ []) : s.afterAll text ≠ s := by
  intro heq
  have hlt := s.lt_afterAll h
  rw [heq] at hlt
  exact lt_irrefl s hlt

theorem after_ne (s : Span) (c : Char) : s.after c ≠ s :=
  s.afterAll_ne (List.cons_ne_nil c [])

/-- The places of a text are told apart by their locations. -/
theorem eq_of_afterAll_eq {s : Span} {pre post pre' post' : List Char}
    (h : pre ++ post = pre' ++ post') (hspan : s.afterAll pre = s.afterAll pre') : pre = pre' := by
  rcases List.append_eq_append_iff.1 h with ⟨more, rfl, -⟩ | ⟨more, rfl, -⟩
  all_goals
    rw [afterAll_append] at hspan
    by_cases hmore : more = []
    · simp [hmore]
  · exact absurd hspan.symm (afterAll_ne _ hmore)
  · exact absurd hspan (afterAll_ne _ hmore)

-- =================================================================== shifts

@[simp]
theorem shift_origin (base : Span) : base.shift origin = base := by
  apply Span.ext
  · show base.line + 1 - 1 = base.line
    omega
  · show (if (1 : Int) = 1 then base.column + 1 - 1 else 1) = base.column
    rw [if_pos rfl]
    omega

/-- The rule for the next location commutes with moving the text. -/
theorem after_shift {s : Span} (base : Span) (c : Char) (h : 1 ≤ s.line) :
    (base.shift s).after c = base.shift (s.after c) := by
  unfold after shift
  by_cases hc : c = '\n'
  · -- behind a newline the line is not the first one, so the column is not moved
    have hlater : s.line + 1 ≠ 1 := by omega
    simp only [hc, if_pos, if_neg hlater]
    apply Span.ext
    · show base.line + s.line - 1 + 1 = base.line + (s.line + 1) - 1
      omega
    · rfl
  · simp only [hc, if_false]
    apply Span.ext
    · rfl
    · show (if s.line = 1 then base.column + s.column - 1 else s.column) + 1
        = if s.line = 1 then base.column + (s.column + 1) - 1 else s.column + 1
      split
      · omega
      · rfl

/-- The location behind a run commutes with moving the text. -/
theorem afterAll_shift {s : Span} (base : Span) (text : List Char) (h : 1 ≤ s.line) :
    (base.shift s).afterAll text = base.shift (s.afterAll text) := by
  induction text generalizing s with
  | nil => rfl
  | cons c text ih =>
    rw [afterAll_cons, afterAll_cons, after_shift base c h]
    exact ih (Int.le_trans h (s.line_le_after c))

end Span

end TexMath
