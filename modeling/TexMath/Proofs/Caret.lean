/-
Carets: what a text looks like when it is printed with the diagnostics
of its own lexical errors.

# The carets of a token list

A lexical error stands at the `#` that starts its lexeme
(`exists_marker_of_error`), and a `#` is no part of a line end. Its line
is therefore printed, with the `#` in the column of the span
(`Text.exists_line_at`), and the caret comes directly below it: no
diagnostic of a text's own tokens is lost, whatever line ends the text
has in front of it or in the character that the error swallows.
-/
import Mathlib.Data.List.Forall2
import TexMath.Proofs.Highlighting
import TexMath.Proofs.MaximalMunch

namespace TexMath

open Text

-- ======================================================= where errors stand

/-- An error among the tokens of a text stands at a `#` of the text, the
one that it reports. -/
theorem Lexeme.exists_marker_of_error {text : List Char} {base : Span}
    {tokens : List (Located Token)} (h : readings base (split text) = tokens.map .ok)
    {token : Located Token} (ht : token ∈ tokens) {cause : IllegalCharacter}
    (herror : token.val = .error cause) :
    cause = ⟨"#"⟩ ∧ ∃ pre post, text = pre ++ '#' :: post ∧ token.span = base.afterAll pre := by
  obtain ⟨pre, rest, w, htext, hmunch, hspan⟩ := exists_munch_of_mem h ht
  -- of the rules of the grammar only the one for a marker gives an error
  rw [herror] at hmunch
  cases hmunch with
  | illegal rest => exact ⟨rfl, pre, rest, htext, hspan⟩

/-- The text is printed with one more line, a caret under the `#` that
stands at the span and reports it. The line `shown` above it is the whole
line that has the `#`: what is printed in front of that is what the text
has in front of it, with plain line ends. -/
def CaretUnder (code : List Char) (span : Span) (block : List Char) : Prop :=
  ∃ pre post before shown after, ∃ k : Nat,
    code = pre ++ '#' :: post ∧ span = Span.origin.afterAll pre
    ∧ plain code = before ++ shown ++ '\n' :: after
    ∧ '\n' ∉ shown ∧ (∀ c ∈ before.getLast?, c = '\n')
    ∧ span = ⟨before.count '\n' + 1, k + 1⟩
    ∧ before ++ shown.take k = joinReturns pre ∧ shown[k]? = some '#'
    ∧ block = before ++ shown ++ '\n' :: (List.replicate k ' ' ++ "^ Illegal character '#'\n".toList)
        ++ after

/-- Printing a `#` of the text as an illegal character puts a caret under
it. -/
theorem exists_highlight_marker {code : String} {pre post : List Char}
    (hcode : code.toList = pre ++ '#' :: post) :
    ∃ block, (Span.origin.afterAll pre).highlight code "Illegal character '#'" = .ok block
      ∧ CaretUnder code.toList (Span.origin.afterAll pre) block.toList := by
  obtain ⟨n, k, before, shown, after, hlines, rfl, hk, hspan, hjoin⟩ :=
    exists_line_at .origin pre post (d := '#') (by decide) (by decide)
  rw [← hcode] at hlines
  have hspan' : Span.origin.afterAll pre = ⟨before.length + 1, k + 1⟩ := by
    rw [hspan]
    simp [Span.origin, Int.add_comm]
  obtain ⟨hlt, -⟩ := List.getElem?_eq_some_iff.1 hk
  have hbare : ∀ l ∈ before ++ shown :: after, '\n' ∉ l := by
    rw [← hlines]
    exact fun l => newline_notMem_lines
  have hcount : (printed before).count '\n' = before.length :=
    count_printed fun l hl => hbare l (by simp [hl])
  refine ⟨_, Span.highlight_of_line hlines hspan' hlt, pre, post, printed before, shown,
    printed after, k, hcode, rfl, ?_, hbare shown (by simp), ?_, ?_, hjoin, hk, ?_⟩
  · rw [plain_eq_printed, hlines]
    simp
  · rcases List.eq_nil_or_concat before with rfl | ⟨front, last, rfl⟩
    · simp
    · simp
  · rw [hspan', hcount]
  · rw [hspan']
    simp [Span.caretLine]

-- ============================================================ all the carets

/-- The diagnostics of tokens are printed one by one when each error of
theirs can be printed. -/
theorem exists_blocks {code : String} {tokens : List (Located Token)}
    (h : ∀ token ∈ tokens, ∀ cause, token.val = .error cause →
      ∃ block, token.span.highlight code cause.message = .ok block
        ∧ CaretUnder code.toList token.span block.toList) :
    ∃ blocks, (Diagnostic.collect tokens).mapM (Diagnostic.render · code) = .ok blocks
      ∧ List.Forall₂ (fun token block => CaretUnder code.toList token.span block.toList)
        (tokens.filter (·.val.isError)) blocks := by
  induction tokens with
  | nil => exact ⟨[], rfl, .nil⟩
  | cons token tokens ih =>
    obtain ⟨blocks, hmap, hunder⟩ := ih fun t ht => h t (List.mem_cons_of_mem _ ht)
    obtain ⟨t, s⟩ := token
    cases t with
    | error cause =>
      obtain ⟨block, hblock, hcaret⟩ := h _ List.mem_cons_self cause rfl
      have hrender : (Diagnostic.ofIllegalCharacter cause s).render code = .ok block := hblock
      have hcollect : Diagnostic.collect (⟨.error cause, s⟩ :: tokens)
          = Diagnostic.ofIllegalCharacter cause s :: Diagnostic.collect tokens := rfl
      refine ⟨block :: blocks, ?_, .cons hcaret hunder⟩
      rw [hcollect, List.mapM_cons, hrender, hmap]
      rfl
    | _ => exact ⟨blocks, hmap, hunder⟩

/-- Every lexical error of a string is printed, in order: the text once
more for each of them, with a caret line behind the line that has the
error and under the `#` that it reports. The rest of each print is what
a caret leaves that points to no line. -/
theorem renderAll_carets {code : String} {tokens : List (Located Token)}
    (h : tokenize code = .ok tokens) :
    (∀ (s : Span) (message : String),
        s.line < 1 ∨ ((plain code.toList).count '\n' : Int) < s.line →
        s.highlight code message = .ok (String.ofList (plain code.toList)))
    ∧ ∃ blocks, Diagnostic.renderAll code (Diagnostic.collect tokens) = .ok (String.join blocks)
      ∧ List.Forall₂ (fun token block => CaretUnder code.toList token.span block.toList)
        (tokens.filter (·.val.isError)) blocks := by
  refine ⟨fun s message hs => Span.highlight_of_outside hs, ?_⟩
  have herrors : ∀ token ∈ tokens, ∀ cause, token.val = .error cause →
      ∃ block, token.span.highlight code cause.message = .ok block
        ∧ CaretUnder code.toList token.span block.toList := by
    intro token htoken cause hcause
    obtain ⟨rfl, pre, post, hcode, hspan⟩ :=
      Lexeme.exists_marker_of_error (tokenize_eq_ok_iff.1 h) htoken hcause
    rw [hspan]
    exact exists_highlight_marker hcode
  obtain ⟨blocks, hmap, hunder⟩ := exists_blocks herrors
  refine ⟨blocks, ?_, hunder⟩
  unfold Diagnostic.renderAll
  rw [hmap]
  rfl

theorem renderAll_carets_mixed :
    tokenize "\\\r\n#\n x#" = .ok
        [⟨.control "\r", ⟨1, 1⟩⟩, ⟨.whitespace "\n", ⟨1, 3⟩⟩, ⟨.error ⟨"#"⟩, ⟨2, 1⟩⟩,
          ⟨.whitespace " ", ⟨3, 1⟩⟩, ⟨.char "x", ⟨3, 2⟩⟩, ⟨.error ⟨"#"⟩, ⟨3, 3⟩⟩]
      ∧ (∀ (s : Span) (message : String), s.line < 1 ∨ 3 < s.line →
        s.highlight "\\\r\n#\n x#" message = .ok "\\\n#\n x#\n")
      ∧ ∃ first second,
        Diagnostic.renderAll "\\\r\n#\n x#"
            [.ofIllegalCharacter ⟨"#"⟩ ⟨2, 1⟩, .ofIllegalCharacter ⟨"#"⟩ ⟨3, 3⟩]
          = .ok (String.join [first, second])
        ∧ CaretUnder "\\\r\n#\n x#".toList ⟨2, 1⟩ first.toList
        ∧ CaretUnder "\\\r\n#\n x#".toList ⟨3, 3⟩ second.toList := by
  have h : tokenize "\\\r\n#\n x#" = .ok
      [⟨.control "\r", ⟨1, 1⟩⟩, ⟨.whitespace "\n", ⟨1, 3⟩⟩, ⟨.error ⟨"#"⟩, ⟨2, 1⟩⟩,
        ⟨.whitespace " ", ⟨3, 1⟩⟩, ⟨.char "x", ⟨3, 2⟩⟩, ⟨.error ⟨"#"⟩, ⟨3, 3⟩⟩] := by
    decide +kernel
  obtain ⟨hplain, blocks, hrender, hunder⟩ := renderAll_carets h
  refine ⟨h, hplain, ?_⟩
  cases hunder with
  | cons hfirst hunder =>
    cases hunder with
    | cons hsecond hunder =>
      cases hunder
      exact ⟨_, _, hrender, hfirst, hsecond⟩

end TexMath
