/-
Highlights: a text printed with a caret, and where the caret line goes.

# The printed text

Printing goes through the numbered lines and puts the caret line behind
the one whose number the span has. What it should come to can be said of
the plain text alone, without lines and numbers (`Span.Annotated`): the
caret line stands behind so many newlines as the span counts lines, and
nothing else is added or changed. There is one such text
(`Span.Annotated.unique`), and it is the one that is printed
(`Span.annotated_highlightChars`).

# The placing of the caret

Whether there is a text at all is up to the column
(`highlight_of_line_number`): the spaces in front of the caret have to be
counted in a machine word. Columns far out of reach fail for that, in both
directions; a column that a text can have never does, and where no line
has the number of the span the column is not even looked at
(`highlight_of_outside`).
-/
import Mathlib.Data.List.Basic
import TexMath.Diagnostic
import TexMath.Proofs.Lines

namespace TexMath

open Text

namespace Text

theorem length_joinReturns_le (text : List Char) : (joinReturns text).length ≤ text.length := by
  fun_induction joinReturns text with
  | case1 => exact Nat.le_refl _
  | case2 rest ih =>
    simp only [List.length_cons]
    omega
  | case3 c rest _ ih =>
    simp only [List.length_cons]
    omega

theorem length_plain_le (text : List Char) : (plain text).length ≤ text.length + 1 := by
  have hjoin := length_joinReturns_le text
  unfold plain endLine
  split
  · omega
  · rw [List.length_append, List.length_singleton]
    omega

/-- No line is longer than its text. -/
theorem length_le_of_mem_lines {text line : List Char} (h : line ∈ lines text) :
    line.length ≤ text.length := by
  obtain ⟨before, after, hlines⟩ := List.append_of_mem h
  have hprinted := congrArg List.length (plain_eq_printed text)
  have hplain := length_plain_le text
  rw [hlines, printed_append, printed_cons, List.length_append, List.length_append,
    List.length_cons] at hprinted
  omega

end Text

namespace Span

variable {s : Span} {code message : List Char}

-- =========================================================== the printed text

theorem flatMap_printLine_of_ne {lines : List (List Char)} {start : Nat}
    (h : ∀ i < lines.length, s.line ≠ (start + i : Nat)) :
    (lines.zipIdx start).flatMap (fun (line, number) => s.printLine message line number)
      = printed lines := by
  induction lines generalizing start with
  | nil => rfl
  | cons line lines ih =>
    have hfirst : ¬ (start : Int) = s.line := by
      have := h 0 (by simp)
      omega
    have hlater : ∀ i < lines.length, s.line ≠ (start + 1 + i : Nat) := by
      intro i hi
      have := h (i + 1) (by simpa using hi)
      omega
    rw [List.zipIdx_cons, List.flatMap_cons, ih hlater]
    simp [printLine, hfirst]

/-- The caret line is all that a caret adds to the plain text. -/
theorem highlightChars_of_line {before after : List (List Char)} {line : List Char}
    (hlines : lines code = before ++ line :: after) (hs : s.line = before.length + 1) :
    s.highlightChars code message
      = printed (before ++ [line]) ++ s.caretLine message ++ printed after := by
  unfold highlightChars
  rw [hlines, List.zipIdx_append, List.flatMap_append, List.zipIdx_cons, List.flatMap_cons,
    flatMap_printLine_of_ne fun i hi => by omega,
    flatMap_printLine_of_ne fun i hi => by omega]
  simp [printLine, hs, Int.add_comm]

/-- The plain text, with one line more when it has a line of the number
that the span has: behind that line come as many spaces as there are
columns in front of the span, a caret, a space, and the message. -/
inductive Annotated (s : Span) (code message : List Char) : List Char → Prop
  | outside (h : s.line < 1 ∨ ((plain code).count '\n' : Int) < s.line) :
      Annotated s code message (plain code)
  | inside {front after : List Char} (text : plain code = front ++ after)
      (ends : front.getLast? = some '\n') (number : (front.count '\n' : Int) = s.line) :
      Annotated s code message
        (front ++ (List.replicate (max 0 (s.column - 1)).toNat ' ' ++ "^ ".toList ++ message
          ++ ['\n']) ++ after)

/-- The newlines in front of it tell where a line ends. -/
theorem eq_of_count_newline {front after front' after' : List Char}
    (h : front ++ after = front' ++ after') (ends : front.getLast? = some '\n')
    (ends' : front'.getLast? = some '\n') (hcount : front.count '\n' = front'.count '\n') :
    front = front' ∧ after = after' := by
  have bare {early more : List Char} (hlast : (early ++ more).getLast? = some '\n')
      (hmore : early.count '\n' = (early ++ more).count '\n') : more = [] := by
    rcases List.eq_nil_or_concat more with rfl | ⟨init, last, rfl⟩
    · rfl
    · rw [List.concat_eq_append, ← List.append_assoc, List.getLast?_concat,
        Option.some.injEq] at hlast
      rw [hlast, List.concat_eq_append, List.count_append, List.count_append,
        List.count_singleton_self] at hmore
      omega
  rcases List.append_eq_append_iff.1 h with ⟨more, rfl, rfl⟩ | ⟨more, rfl, rfl⟩
  · rw [bare ends' hcount, List.append_nil]
    exact ⟨rfl, rfl⟩
  · rw [bare ends hcount.symm, List.append_nil]
    exact ⟨rfl, rfl⟩

theorem count_pos_of_ends {front : List Char} (ends : front.getLast? = some '\n') :
    0 < front.count '\n' :=
  List.count_pos_iff.2 (List.mem_of_getLast? ends)

theorem Annotated.unique {text text' : List Char} (h : s.Annotated code message text)
    (h' : s.Annotated code message text') : text' = text := by
  -- a line that is there has a number that is in range
  have range {front after : List Char} (htext : plain code = front ++ after)
      (ends : front.getLast? = some '\n') (number : (front.count '\n' : Int) = s.line) :
      ¬ (s.line < 1 ∨ ((plain code).count '\n' : Int) < s.line) := by
    have hpos := count_pos_of_ends ends
    rw [htext, List.count_append]
    omega
  cases h with
  | outside hout =>
    cases h' with
    | outside => rfl
    | inside htext ends number => exact absurd hout (range htext ends number)
  | inside htext ends number =>
    cases h' with
    | outside hout => exact absurd hout (range htext ends number)
    | inside htext' ends' number' =>
      obtain ⟨rfl, rfl⟩ :=
        eq_of_count_newline (htext.symm.trans htext') ends ends' (by omega)
      rfl

/-- The line of a span whose number is in range. -/
theorem exists_line (h : 1 ≤ s.line) (h' : s.line ≤ ((plain code).count '\n' : Int)) :
    ∃ before line after, lines code = before ++ line :: after ∧ s.line = before.length + 1 := by
  rw [count_plain] at h'
  obtain ⟨k, hk⟩ := Int.eq_ofNat_of_zero_le (show 0 ≤ s.line - 1 by omega)
  have hlt : k < (lines code).length := by omega
  refine ⟨(lines code).take k, (lines code)[k], (lines code).drop (k + 1), ?_, ?_⟩
  · rw [List.getElem_cons_drop, List.take_append_drop]
  · rw [List.length_take, Nat.min_eq_left (Nat.le_of_lt hlt)]
    omega

/-- What is printed is the text with its caret line. -/
theorem annotated_highlightChars (s : Span) (code message : List Char) :
    s.Annotated code message (s.highlightChars code message) := by
  by_cases hout : s.line < 1 ∨ ((plain code).count '\n' : Int) < s.line
  · have hplain : s.highlightChars code message = plain code := by
      rw [count_plain] at hout
      unfold highlightChars
      rw [flatMap_printLine_of_ne fun i hi => by omega, plain_eq_printed]
    rw [hplain]
    exact .outside hout
  · rw [not_or, Int.not_lt, Int.not_lt] at hout
    obtain ⟨before, line, after, hlines, hs⟩ := exists_line hout.1 hout.2
    have hbare : ∀ l ∈ before ++ [line], '\n' ∉ l := by
      intro l hl
      have hmem : l ∈ lines code := by
        rw [hlines, List.append_cons]
        exact List.mem_append_left after hl
      exact newline_notMem_lines hmem
    have hmax : max 0 (s.column - 1) = ((s.column - 1).toNat : Int) := by omega
    rw [highlightChars_of_line hlines hs]
    have hcaret : s.caretLine message = List.replicate (max 0 (s.column - 1)).toNat ' '
        ++ "^ ".toList ++ message ++ ['\n'] := by
      rw [hmax, Int.toNat_natCast]
      simp [caretLine]
    rw [hcaret]
    refine .inside ?_ ?_ ?_
    · rw [plain_eq_printed, hlines, ← printed_append, List.append_cons]
    · simp
    · rw [count_printed hbare, List.length_append, List.length_singleton, hs]
      omega

-- ================================================== the placing of the caret

/-- A caret that points to no line of the text leaves it plain. -/
theorem highlight_of_outside {code message : String}
    (h : s.line < 1 ∨ ((plain code.toList).count '\n' : Int) < s.line) :
    s.highlight code message = .ok (String.ofList (plain code.toList)) := by
  rw [count_plain] at h
  have hline : s.line? code.toList = none := by
    unfold line?
    split
    · rfl
    · rw [List.getElem?_eq_none]
      omega
  unfold highlight highlightChars
  rw [hline, flatMap_printLine_of_ne fun i hi => by omega, ← plain_eq_printed]
  rfl

/-- Where the text has the line of the span, the line decides with the
column whether the caret can be placed. -/
theorem highlight_of_line_number {code message : String} {before after : List (List Char)}
    {line : List Char} (hlines : lines code.toList = before ++ line :: after)
    (hs : s.line = before.length + 1) :
    s.highlight code message = match s.caretFault? line with
      | some fault => .error fault
      | none => .ok (String.ofList (s.highlightChars code.toList message.toList)) := by
  have hline : s.line? code.toList = some line := by
    unfold line?
    rw [if_neg (by omega), hlines, hs]
    simp
  unfold highlight
  rw [hline]
  rfl

/-- A caret under a character of the line can be placed. -/
theorem highlight_of_line {code message : String} {before after : List (List Char)}
    {line : List Char} {k : Nat} (hlines : lines code.toList = before ++ line :: after)
    (hs : s = ⟨before.length + 1, k + 1⟩) (hk : k < line.length) :
    s.highlight code message = .ok (String.ofList
      (printed (before ++ [line]) ++ s.caretLine message.toList ++ printed after)) := by
  subst hs
  have hfault : caretFault? ⟨before.length + 1, k + 1⟩ line = none := by
    unfold caretFault?
    exact if_pos
      (.inl ⟨by show (0 : Int) ≤ k + 1 - 1; omega, by show (k : Int) + 1 - 1 < _; omega⟩)
  rw [highlight_of_line_number hlines rfl, hfault, highlightChars_of_line hlines rfl]

/-- A column has a place for the caret when the spaces in front of it can
be counted in a word. -/
theorem caretFault?_of_fits {line : List Char} (h : fitsWord (s.column - 1) = true) :
    s.caretFault? line = none :=
  if_pos (.inr h)

/-- Out of the line, a column has no place for the caret otherwise. -/
theorem caretFault?_of_beyond {line : List Char}
    (hout : s.column < 1 ∨ (line.length : Int) < s.column) (h : fitsWord (s.column - 1) = false) :
    s.caretFault? line = some .columnOutOfRange := by
  have hline : ¬ (0 ≤ s.column - 1 ∧ s.column - 1 < line.length) := by omega
  unfold caretFault?
  rw [if_neg]
  rw [h]
  exact fun hplace => hplace.elim hline nofun

/-- What comes of a text and a span, whatever the span. The text that the
caret line is to be in is determined, and no other is ever printed. It is
printed when the text has no line of the span's number, and when the
spaces in front of the caret can be counted in a machine word. A column
outside of the text that does not allow that is a fault. -/
theorem highlight_annotates (s : Span) (code message : String) :
    let outside := s.line < 1 ∨ ((plain code.toList).count '\n' : Int) < s.line
    let fits := -0x8000000000000000 ≤ s.column - 1 ∧ s.column - 1 < 0x8000000000000000
    let beyond := s.column < 1 ∨ (code.toList.length : Int) < s.column
    ∃ text, (∀ other, s.Annotated code.toList message.toList other ↔ other = text)
      ∧ (∀ result, s.highlight code message = .ok result → result = String.ofList text)
      ∧ (outside → s.highlight code message = .ok (String.ofList text))
      ∧ (fits → s.highlight code message = .ok (String.ofList text))
      ∧ (¬ outside → beyond → ¬ fits → s.highlight code message = .error .columnOutOfRange) := by
  intro outside fits beyond
  have htext := s.annotated_highlightChars code.toList message.toList
  have hfits : fits ↔ fitsWord (s.column - 1) = true := by
    unfold fitsWord
    rw [Bool.and_eq_true, decide_eq_true_eq, decide_eq_true_eq]
  refine ⟨s.highlightChars code.toList message.toList, fun other => ⟨fun h => htext.unique h, ?_⟩,
    ?_⟩
  · rintro rfl
    exact htext
  by_cases hout : outside
  · have hplain : s.highlight code message = .ok (String.ofList (plain code.toList)) :=
      highlight_of_outside hout
    have hsame : s.highlightChars code.toList message.toList = plain code.toList :=
      (Annotated.outside hout).unique htext
    rw [hplain, hsame]
    exact ⟨fun result h => (Except.ok.inj h).symm, fun _ => rfl, fun _ => rfl,
      fun h => absurd hout h⟩
  · have hin := hout
    rw [not_or, Int.not_lt, Int.not_lt] at hin
    obtain ⟨before, line, after, hlines, hs⟩ := exists_line hin.1 hin.2
    have hlength : line.length ≤ code.toList.length := by
      apply length_le_of_mem_lines
      rw [hlines]
      exact List.mem_append_right before List.mem_cons_self
    rw [highlight_of_line_number hlines hs]
    refine ⟨fun result h => ?_, fun h => absurd h hout, fun hword => ?_,
      fun _ hbeyond hword => ?_⟩
    · cases hfault : s.caretFault? line with
      | some fault =>
        rw [hfault] at h
        cases h
      | none =>
        rw [hfault] at h
        exact (Except.ok.inj h).symm
    · rw [caretFault?_of_fits (hfits.1 hword)]
    · rw [caretFault?_of_beyond (by omega) (Bool.of_not_eq_true (mt hfits.2 hword))]

/-- A column that is so far to the left that it fits no word is not the same
as one in front of the line: nothing is printed. -/
theorem highlight_far_left :
    let s : Span := ⟨1, -0x8000000000000000⟩
    s.Annotated "a".toList "m".toList "a\n^ m\n".toList
    ∧ s.highlight "a" "m" = .error .columnOutOfRange
    ∧ ¬ ∀ (s : Span) (code message : String), ∃ result, s.highlight code message = .ok result
        ∧ s.Annotated code.toList message.toList result.toList := by
  have hfault : highlight ⟨1, -0x8000000000000000⟩ "a" "m" = .error .columnOutOfRange := by
    decide +kernel
  refine ⟨@Annotated.inside _ _ _ ['a', '\n'] [] rfl rfl rfl, hfault, fun hall => ?_⟩
  obtain ⟨result, hresult, -⟩ := hall ⟨1, -0x8000000000000000⟩ "a" "m"
  rw [hfault] at hresult
  cases hresult

end Span

end TexMath
