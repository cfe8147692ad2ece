/-
Lines of a text and where its characters stand in them.

# Two ways to the same lines

The lines come from a cut at every newline that is mended afterwards: a
carriage return is taken off each piece but the last, and a last piece
without characters is left out. `Text.plain` does without pieces and
works on the characters alone. Both obey the same three equations, for a
newline, for a carriage return in front of a newline, which is as if it
were not there, and for any other character; so the plain text is what
the lines print (`plain_eq_printed`).

# Characters in lines

The same equations, read along the rule for locations, put each character
of a text into its line (`exists_line_at`): the location counts newlines
one character at a time, and the lines agree with it because the only
characters that they drop stand at the end of a line, behind every
character that is kept.
-/
import TexMath.Proofs.Location
import TexMath.Text.Lines

namespace TexMath.Text

variable {c : Char} {text : List Char}

-- ==================================================== the equations of lines

/-- The lines, each with a newline at its end. -/
def printed (lines : List (List Char)) : List Char :=
  lines.flatMap (· ++ ['\n'])

@[simp]
theorem printed_nil : printed [] = [] := rfl

@[simp]
theorem printed_cons (line : List Char) (later : List (List Char)) :
    printed (line :: later) = line ++ '\n' :: printed later := by
  simp [printed]

@[simp]
theorem printed_append (early later : List (List Char)) :
    printed (early ++ later) = printed early ++ printed later := by
  simp [printed]

theorem lines_newline (text : List Char) : lines ('\n' :: text) = [] :: lines text := by
  simp [lines, linesOfPieces, dropReturn]

/-- A piece with nothing in front of a newline starts with the newline. -/
theorem head_of_cut (h : (cut '\n' text).1 = []) (hne : (cut '\n' text).2 ≠ []) :
    text.head? = some '\n' := by
  cases text with
  | nil => simp at hne
  | cons d text =>
    by_cases hd : d = '\n'
    · subst hd
      rfl
    · rw [cut_cons hd] at h
      simp at h

theorem dropReturn_cons {piece : List Char} (h : piece ≠ [] ∨ c ≠ '\r') :
    dropReturn (c :: piece) = c :: dropReturn piece := by
  cases piece with
  | nil => simp_all [dropReturn]
  | cons d piece =>
    simp only [dropReturn, List.getLast?_cons_cons, List.dropLast_cons_cons]
    split <;> rfl

theorem lines_return (h : text.head? = some '\n') : lines ('\r' :: text) = lines text := by
  cases text with
  | nil => simp at h
  | cons d text =>
    simp only [List.head?_cons, Option.some.injEq] at h
    subst h
    simp [lines, cut_cons, linesOfPieces, dropReturn]

/-- Any other character is the first one of the line that follows it. -/
theorem lines_cons (hc : c ≠ '\n') (hr : ¬ (c = '\r' ∧ text.head? = some '\n')) :
    lines (c :: text) = (c :: (lines text).headD []) :: (lines text).tail := by
  unfold lines
  rw [cut_cons hc]
  by_cases hlater : (cut '\n' text).2 = []
  · rw [hlater]
    by_cases hpiece : (cut '\n' text).1 = []
    · simp [linesOfPieces, hpiece]
    · simp [linesOfPieces, hpiece]
  · have hdrop : (cut '\n' text).1 ≠ [] ∨ c ≠ '\r' := by
      by_cases hpiece : (cut '\n' text).1 = []
      · right
        rintro rfl
        exact hr ⟨rfl, head_of_cut hpiece hlater⟩
      · exact .inl hpiece
    obtain ⟨next, later, hcut⟩ := List.exists_cons_of_ne_nil hlater
    simp [hcut, linesOfPieces, dropReturn_cons hdrop]

theorem lines_eq_nil_iff : lines text = [] ↔ text = [] := by
  cases text with
  | nil => simp [lines, linesOfPieces]
  | cons c text =>
    by_cases hc : c = '\n'
    · subst hc
      simp [lines_newline]
    · by_cases hr : c = '\r' ∧ text.head? = some '\n'
      · obtain ⟨rfl, hhead⟩ := hr
        obtain ⟨more, rfl⟩ := List.head?_eq_some_iff.1 hhead
        rw [lines_return hhead, lines_newline]
        simp
      · simp [lines_cons hc hr]

theorem newline_notMem_lines {line : List Char} (h : line ∈ lines text) : '\n' ∉ line := by
  induction text generalizing line with
  | nil => simp [lines, linesOfPieces] at h
  | cons c text ih =>
    by_cases hc : c = '\n'
    · subst hc
      rw [lines_newline, List.mem_cons] at h
      rcases h with rfl | h
      · exact List.not_mem_nil
      · exact ih h
    · by_cases hr : c = '\r' ∧ text.head? = some '\n'
      · obtain ⟨rfl, hhead⟩ := hr
        rw [lines_return hhead] at h
        exact ih h
      · rw [lines_cons hc hr, List.mem_cons] at h
        rcases h with rfl | h
        · rw [List.mem_cons, not_or]
          refine ⟨Ne.symm hc, ?_⟩
          cases hlines : lines text with
          | nil => exact List.not_mem_nil
          | cons first later => exact ih (by simp [hlines])
        · exact ih (List.mem_of_mem_tail h)

-- =============================================================== plain texts

theorem joinReturns_return (h : text.head? = some '\n') :
    joinReturns ('\r' :: text) = joinReturns text := by
  cases text with
  | nil => simp at h
  | cons d text =>
    simp only [List.head?_cons, Option.some.injEq] at h
    subst h
    simp [joinReturns]

theorem joinReturns_cons (hr : ¬ (c = '\r' ∧ text.head? = some '\n')) :
    joinReturns (c :: text) = c :: joinReturns text := by
  rw [joinReturns]
  rintro rest rfl rfl
  exact hr ⟨rfl, rfl⟩

theorem joinReturns_eq_nil_iff : joinReturns text = [] ↔ text = [] := by
  fun_cases joinReturns text <;> simp

theorem plain_return (h : text.head? = some '\n') : plain ('\r' :: text) = plain text := by
  unfold plain
  rw [joinReturns_return h]

theorem plain_cons (hr : ¬ (c = '\r' ∧ text.head? = some '\n')) :
    plain (c :: text)
      = c :: if text = [] then (if c = '\n' then [] else ['\n']) else plain text := by
  unfold plain
  rw [joinReturns_cons hr]
  by_cases htext : text = []
  · subst htext
    by_cases hc : c = '\n' <;> simp [joinReturns, endLine, hc]
  · obtain ⟨d, more, hjoin⟩ := List.exists_cons_of_ne_nil (mt joinReturns_eq_nil_iff.1 htext)
    rw [if_neg htext, hjoin]
    simp only [endLine, List.isEmpty_cons, List.getLast?_cons_cons, Bool.false_or]
    split <;> simp

/-- The plain text is what the lines print. -/
theorem plain_eq_printed (text : List Char) : plain text = printed (lines text) := by
  induction text with
  | nil => rfl
  | cons c text ih =>
    by_cases hr : c = '\r' ∧ text.head? = some '\n'
    · obtain ⟨rfl, hhead⟩ := hr
      rw [plain_return hhead, lines_return hhead, ih]
    · rw [plain_cons hr, ih]
      by_cases hc : c = '\n'
      · subst hc
        rw [lines_newline]
        by_cases htext : text = []
        · subst htext
          rfl
        · simp [htext]
      · rw [lines_cons hc hr]
        by_cases htext : text = []
        · subst htext
          simp [hc, lines, linesOfPieces]
        · obtain ⟨line, later, hlines⟩ :=
            List.exists_cons_of_ne_nil (mt lines_eq_nil_iff.1 htext)
          simp [htext, hlines]

theorem count_printed {all : List (List Char)} (h : ∀ line ∈ all, '\n' ∉ line) :
    (printed all).count '\n' = all.length := by
  induction all with
  | nil => rfl
  | cons line later ih =>
    have hline := List.count_eq_zero.2 (h line List.mem_cons_self)
    have hlater := ih fun l hl => h l (List.mem_cons_of_mem _ hl)
    rw [printed_cons, List.count_append, List.count_cons_self, hline, hlater, List.length_cons,
      Nat.zero_add]

/-- The lines can be counted in the plain text. -/
theorem count_plain (text : List Char) : (plain text).count '\n' = (lines text).length := by
  rw [plain_eq_printed, count_printed fun _ => newline_notMem_lines]

-- ======================================================== characters in lines

/-- A character that is no part of a line end stands in the line and the
column that the rule for locations gives it, and what is printed in front
of it is what the text has there, with its line ends made plain. -/
theorem exists_line_at (base : Span) (pre post : List Char) {d : Char} (hd : d ≠ '\n')
    (hd' : d ≠ '\r') :
    ∃ n k : Nat, ∃ before shown after, lines (pre ++ d :: post) = before ++ shown :: after
      ∧ before.length = n ∧ shown[k]? = some d
      ∧ base.afterAll pre = ⟨base.line + n, (if n = 0 then base.column else 1) + k⟩
      ∧ printed before ++ shown.take k = joinReturns pre := by
  induction pre generalizing base with
  | nil =>
    refine ⟨0, 0, [], _, _, lines_cons hd (fun h => hd' h.1), rfl, rfl, ?_, rfl⟩
    simp [Span.afterAll]
  | cons c pre ih =>
    obtain ⟨n, k, before, shown, after, hlines, hn, hk, hspan, hjoin⟩ := ih (base.after c)
    rw [Span.afterAll_cons, hspan, List.cons_append]
    by_cases hc : c = '\n'
    · -- the lines of what follows are counted on from the next line
      subst hc
      refine ⟨n + 1, k, [] :: before, shown, after, ?_, ?_, hk, ?_, ?_⟩
      · rw [lines_newline, hlines]
        rfl
      · simp [hn]
      · simp [Span.after]
        omega
      · rw [joinReturns_cons (fun h => absurd h.1 (by decide)), printed_cons, List.append_assoc]
        simp [← hjoin]
    · have hafter : base.after c = ⟨base.line, base.column + 1⟩ := if_neg hc
      rw [hafter]
      have hhead : (pre ++ d :: post).head? = some '\n' ↔ pre.head? = some '\n' := by
        cases pre with
        | nil => simp [hd]
        | cons e pre => simp
      by_cases hr : c = '\r' ∧ (pre ++ d :: post).head? = some '\n'
      · -- the column that is not printed is on a line that has ended
        obtain ⟨rfl, hnl⟩ := hr
        have hlater : n ≠ 0 := by
          rintro rfl
          obtain ⟨more, rfl⟩ := List.head?_eq_some_iff.1 (hhead.1 hnl)
          have hline := Span.line_le_afterAll ((base.after '\r').after '\n') more
          rw [← Span.afterAll_cons, hspan, hafter] at hline
          have hnot : ¬ base.line + 1 ≤ base.line + (0 : Nat) := by omega
          exact hnot hline
        refine ⟨n, k, before, shown, after, ?_, hn, hk, ?_, ?_⟩
        · rw [lines_return hnl, hlines]
        · simp [hlater]
        · rw [joinReturns_return (hhead.1 hnl), hjoin]
      · rw [joinReturns_cons (fun h => hr ⟨h.1, hhead.2 h.2⟩), ← hjoin, lines_cons hc hr, hlines]
        cases before with
        | nil =>
          refine ⟨0, k + 1, [], c :: shown, after, by simp, rfl, hk, ?_, by simp⟩
          subst hn
          simp
          omega
        | cons first before =>
          subst hn
          exact ⟨before.length + 1, k, (c :: first) :: before, shown, after, by simp, by simp, hk,
            by simp, by simp⟩

end TexMath.Text
