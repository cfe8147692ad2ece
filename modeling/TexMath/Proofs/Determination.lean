/-
How much of a string its located tokens keep.

# What the values forget

Most tokens spell their lexeme out. A number forgets the zeros it starts
with, and an error forgets the character that it has swallowed. What
brings them back is where the next token stands: a number of as many
digits with the same value has the same digits (`eq_of_decimalValue_eq`),
and the next token stands on the next line exactly when the swallowed
character was a newline. Behind the last token nothing stands, so the last
one must be neither a number nor an error.

# From lexemes to characters

Two strings with the same located tokens are read side by side. Their
lexemes are of the same length, each pair of them, and differ in a
swallowed character at most (`Munch.twins`), so that both strings go on at
the same location. Read character by character, this is `Agrees`, and what
stands at an index of the two strings follows from that.
-/
import TexMath.Proofs.Spelling

namespace TexMath

open Text

-- ============================================================ single lexemes

namespace Span

theorem after_eq_after_iff (s : Span) {c d : Char} :
    s.after c = s.after d ↔ (c = '\n' ↔ d = '\n') := by
  have hline : s.line ≠ s.line + 1 := by omega
  unfold after
  by_cases hc : c = '\n' <;> by_cases hd : d = '\n'
  · simp [hc, hd]
  · simp [hc, hd, hline.symm]
  · simp [hc, hd, hline]
  · simp [hc, hd]

/-- On one line the column counts the characters. -/
theorem afterAll_of_newline_notMem (s : Span) {text : List Char} (h : '\n' ∉ text) :
    s.afterAll text = ⟨s.line, s.column + text.length⟩ := by
  induction text generalizing s with
  | nil => simp [afterAll]
  | cons c text ih =>
    rw [List.mem_cons, not_or] at h
    have hc : s.after c = ⟨s.line, s.column + 1⟩ := if_neg (Ne.symm h.1)
    rw [afterAll_cons, hc, ih _ h.2]
    simp
    omega

end Span

namespace Text

/-- Digits are known from their number and from the value that they write,
whatever is in front of them. -/
theorem eq_of_ofDigitChars_eq {ds es : List Char} {a b : Nat} (hds : ∀ d ∈ ds, isDigit d = true)
    (hes : ∀ e ∈ es, isDigit e = true) (hlength : ds.length = es.length)
    (h : Nat.ofDigitChars 10 ds a = Nat.ofDigitChars 10 es b) : a = b ∧ ds = es := by
  induction ds generalizing es a b with
  | nil =>
    cases es with
    | nil => exact ⟨h, rfl⟩
    | cons e es => cases hlength
  | cons d ds ih =>
    cases es with
    | nil => cases hlength
    | cons e es =>
      rw [Nat.ofDigitChars_cons, Nat.ofDigitChars_cons] at h
      obtain ⟨hvalue, rfl⟩ := ih (fun x hx => hds x (List.mem_cons_of_mem d hx))
        (fun x hx => hes x (List.mem_cons_of_mem e hx)) (Nat.succ.inj hlength) h
      have hd := isDigit_iff.1 (hds d List.mem_cons_self)
      have he := isDigit_iff.1 (hes e List.mem_cons_self)
      have hzero : '0'.toNat = 48 := rfl
      have hchar : d = e := Char.toNat_inj.1 (by omega)
      exact ⟨by omega, by rw [hchar]⟩

theorem eq_of_decimalValue_eq {ds es : List Char} (hds : ∀ d ∈ ds, isDigit d = true)
    (hes : ∀ e ∈ es, isDigit e = true) (hlength : ds.length = es.length)
    (h : decimalValue ds = decimalValue es) : ds = es :=
  (eq_of_ofDigitChars_eq (a := 0) (b := 0) hds hes hlength h).2

theorem newline_notMem_digits {ds : List Char} (h : ∀ d ∈ ds, isDigit d = true) : '\n' ∉ ds :=
  fun hmem => absurd (h _ hmem) (by decide)

end Text

/-- Two lexemes that read as the token `t` are the same, or they differ in
the character that they swallow. -/
inductive Twins (t : Token) : List Char → List Char → Prop
  | same (w) : Twins t w w
  | swallowed (cause : IllegalCharacter) (c d) (h : t = .error cause) (hc : isDigit c = false)
      (hd : isDigit d = false) (hline : c = '\n' ↔ d = '\n') : Twins t ['#', c] ['#', d]

namespace Munch

variable {r r' w w' : List Char} {t : Token} {s : Span}

/-- The lexeme of a token that is neither a number nor an error is its
spelling. -/
theorem eq_spelling (h : Munch r w t) (hnumber : t.kind ≠ .arg) (herror : t.kind ≠ .error) :
    w = t.spelling := by
  cases h with
  | number c rest => exact absurd rfl hnumber
  | illegal rest => exact absurd rfl herror
  | word c rest => simp [Token.spelling]
  | symbol c rest => simp [Token.spelling]
  | comment rest => simp [Token.spelling]
  | blank c rest => simp [Token.spelling]
  | char c rest => simp [Token.spelling]
  | _ => rfl

theorem exists_digits {n : Int} (h : Munch r w (.arg n)) :
    ∃ digits, w = '#' :: digits ∧ (∀ d ∈ digits, isDigit d = true) ∧ n = decimalValue digits := by
  cases h with
  | number c rest => exact ⟨_, rfl, fun d hd => List.mem_takeWhile_imp hd, rfl⟩

/-- An error that is not the end of the text has swallowed a character. -/
theorem exists_swallowed {cause : IllegalCharacter} (h : Munch r w (.error cause)) (hr : w ≠ r) :
    ∃ c, w = ['#', c] ∧ isDigit c = false := by
  cases h with
  | illegal rest digit =>
    cases rest with
    | nil => exact absurd rfl hr
    | cons c rest => exact ⟨c, rfl, digit c rfl⟩

/-- Lexemes that read as the same token, end at the same location and are
not the end of their texts are twins. -/
theorem twins (h : Munch r w t) (h' : Munch r' w' t) (hr : w ≠ r) (hr' : w' ≠ r')
    (hspan : s.afterAll w = s.afterAll w') : Twins t w w' := by
  by_cases herror : t.kind = .error
  · cases t with
    | error cause =>
      obtain ⟨c, rfl, hc⟩ := exists_swallowed h hr
      obtain ⟨d, rfl, hd⟩ := exists_swallowed h' hr'
      exact .swallowed cause c d rfl hc hd ((s.after '#').after_eq_after_iff.1 hspan)
    | _ => cases herror
  · by_cases hnumber : t.kind = .arg
    · cases t with
      | arg n =>
        obtain ⟨ds, rfl, hds, hn⟩ := exists_digits h
        obtain ⟨es, rfl, hes, hn'⟩ := exists_digits h'
        have hline : '\n' ∉ '#' :: ds := by simp [newline_notMem_digits hds]
        have hline' : '\n' ∉ '#' :: es := by simp [newline_notMem_digits hes]
        rw [s.afterAll_of_newline_notMem hline, s.afterAll_of_newline_notMem hline'] at hspan
        have hcolumn : s.column + ↑(ds.length + 1) = s.column + ↑(es.length + 1) :=
          congrArg Span.column hspan
        have hvalue : decimalValue ds = decimalValue es := by omega
        rw [eq_of_decimalValue_eq hds hes (by omega) hvalue]
        exact .same _
      | _ => cases hnumber
    · rw [eq_spelling h hnumber herror, eq_spelling h' hnumber herror]
      exact .same _

end Munch

-- ========================================================= texts side by side

/-- Two texts that start at the same location are the same, but for the
characters behind the `#` of errors among the tokens. -/
inductive Agrees (tokens : List (Located Token)) : Span → List Char → List Char → Prop
  | nil (s) : Agrees tokens s [] []
  | keep (c) {s text text'} (h : Agrees tokens (s.after c) text text') :
      Agrees tokens s (c :: text) (c :: text')
  | swallow (cause : IllegalCharacter) {c d s text text'} (herror : ⟨.error cause, s⟩ ∈ tokens)
      (hc : isDigit c = false) (hd : isDigit d = false) (hline : c = '\n' ↔ d = '\n')
      (h : Agrees tokens ((s.after '#').after c) text text') :
      Agrees tokens s ('#' :: c :: text) ('#' :: d :: text')

/-- The character at the index `i` of a text that starts at `s` stands
right behind the `#` of an error among the tokens. -/
def Swallowed (tokens : List (Located Token)) (s : Span) (text : List Char) (i : Nat) : Prop :=
  ∃ cause front, text.take i = front ++ ['#'] ∧ ⟨.error cause, s.afterAll front⟩ ∈ tokens

section

variable {tokens : List (Located Token)} {s : Span} {text text' w w' : List Char} {i : Nat}

theorem Swallowed.cons {c : Char} (h : Swallowed tokens (s.after c) text i) :
    Swallowed tokens s (c :: text) (i + 1) := by
  obtain ⟨cause, front, htake, hmem⟩ := h
  exact ⟨cause, c :: front, by rw [List.take_succ_cons, htake, List.cons_append], hmem⟩

namespace Agrees

theorem append_left (w : List Char) (h : Agrees tokens (s.afterAll w) text text') :
    Agrees tokens s (w ++ text) (w ++ text') := by
  induction w generalizing s with
  | nil => exact h
  | cons c w ih => exact .keep c (ih h)

theorem append_twins {t : Token} (hw : Twins t w w') (ht : ⟨t, s⟩ ∈ tokens)
    (h : Agrees tokens (s.afterAll w) text text') :
    Agrees tokens s (w ++ text) (w' ++ text') := by
  cases hw with
  | same => exact append_left w h
  | swallowed cause c d herror hc hd hline => exact .swallow cause (herror ▸ ht) hc hd hline h

theorem length_eq (h : Agrees tokens s text text') : text.length = text'.length := by
  induction h with
  | nil => rfl
  | keep c _ ih => exact congrArg (· + 1) ih
  | swallow cause _ _ _ _ _ ih => exact congrArg (· + 2) ih

theorem eq_of_no_error (h : Agrees tokens s text text')
    (hnone : ∀ t ∈ tokens, t.val.kind ≠ .error) : text = text' := by
  induction h with
  | nil => rfl
  | keep c _ ih => exact congrArg (c :: ·) ih
  | swallow cause herror => exact absurd rfl (hnone _ herror)

/-- At an index the texts have the same character, or characters that an
error swallows. -/
theorem getElem? {c c' : Char} (h : Agrees tokens s text text') (hc : text[i]? = some c)
    (hc' : text'[i]? = some c') :
    c = c' ∨ Swallowed tokens s text i ∧ Swallowed tokens s text' i ∧ isDigit c = false
      ∧ isDigit c' = false ∧ (c = '\n' ↔ c' = '\n') := by
  induction h generalizing i with
  | nil => cases hc
  | keep d _ ih =>
    cases i with
    | zero => exact .inl (Option.some.inj (hc.symm.trans hc'))
    | succ i => exact (ih hc hc').imp_right (.imp .cons (.imp_left .cons))
  | @swallow cause d d' s _ _ herror hd hd' hline _ ih =>
    cases i with
    | zero => exact .inl (Option.some.inj (hc.symm.trans hc'))
    | succ i =>
      cases i with
      | zero =>
        cases hc
        cases hc'
        exact .inr ⟨⟨cause, [], rfl, herror⟩, ⟨cause, [], rfl, herror⟩, hd, hd', hline⟩
      | succ i =>
        -- the locations behind the swallowed characters are the same ones
        have hsame := ((s.after '#').after_eq_after_iff).2 hline
        refine (ih hc hc').imp_right (.imp (.cons ∘ .cons) (.imp_left fun h => .cons (.cons ?_)))
        rwa [← hsame]

end Agrees

end

-- ============================================================== whole texts

namespace Lexeme

variable {tokens all : List (Located Token)} {s : Span} {text text' : List Char}

/-- Texts with the same located tokens agree, when the last one of these
has a lexeme that is known from it. -/
theorem agrees_of_readings (h : readings s (split text) = tokens.map .ok)
    (h' : readings s (split text') = tokens.map .ok)
    (hlast : ∀ t ∈ tokens.getLast?, t.val.kind ≠ .arg ∧ t.val.kind ≠ .error)
    (hall : tokens ⊆ all) : Agrees all s text text' := by
  induction tokens generalizing s text text' with
  | nil =>
    rw [eq_nil_of_readings h, eq_nil_of_readings h']
    exact .nil s
  | cons t tokens ih =>
    obtain ⟨w, rest, rfl, hw, hspan, hrest⟩ := exists_of_readings_cons h
    obtain ⟨w', rest', rfl, hw', -, hrest'⟩ := exists_of_readings_cons h'
    cases tokens with
    | nil =>
      obtain ⟨hnumber, herror⟩ := hlast t rfl
      rw [eq_nil_of_readings hrest, eq_nil_of_readings hrest', Munch.eq_spelling hw hnumber herror,
        Munch.eq_spelling hw' hnumber herror]
      exact .append_left _ (.nil _)
    | cons u tokens =>
      -- the next token tells where both lexemes end
      have hnext : s.afterAll w = s.afterAll w' :=
        (span_of_readings hrest).symm.trans (span_of_readings hrest')
      have hmore : w ≠ w ++ rest := fun hend =>
        ne_nil_of_readings hrest (List.self_eq_append_right.1 hend)
      have hmore' : w' ≠ w' ++ rest' := fun hend =>
        ne_nil_of_readings hrest' (List.self_eq_append_right.1 hend)
      rw [← hnext] at hrest'
      refine .append_twins (Munch.twins hw hw' hmore hmore' hnext) ?_ ?_
      · exact hspan ▸ hall List.mem_cons_self
      · exact ih hrest hrest' hlast fun _ ht => hall (List.mem_cons_of_mem t ht)

end Lexeme

-- ============================================================= whole strings

/-- Strings with the same located tokens, the last of which is neither a
number nor an error, have the same length, and at every index the same
character, except right behind the `#` of an error: there both have a
character that is no digit, and both a newline or both another one. So
without errors the strings are the same. -/
theorem tokenize_determines {code code' : String} {tokens : List (Located Token)}
    (h : tokenize code = .ok tokens) (h' : tokenize code' = .ok tokens)
    (hlast : ∀ t ∈ tokens.getLast?, t.val.kind ≠ .arg ∧ t.val.kind ≠ .error) :
    code.length = code'.length
      ∧ (∀ i c c', code.toList[i]? = some c → code'.toList[i]? = some c' →
          c = c' ∨ Swallowed tokens .origin code.toList i ∧ Swallowed tokens .origin code'.toList i
            ∧ isDigit c = false ∧ isDigit c' = false ∧ (c = '\n' ↔ c' = '\n'))
      ∧ ((∀ t ∈ tokens, t.val.kind ≠ .error) → code = code') := by
  have hagrees := Lexeme.agrees_of_readings (tokenize_eq_ok_iff.1 h) (tokenize_eq_ok_iff.1 h') hlast
    (List.Subset.refl tokens)
  refine ⟨?_, fun i c c' hc hc' => hagrees.getElem? hc hc', fun hnone => ?_⟩
  · rw [← String.length_toList, ← String.length_toList]
    exact hagrees.length_eq
  · exact String.toList_inj.1 (hagrees.eq_of_no_error hnone)

/-- The zero and the location of the error are kept, the character that it
swallows is not. -/
theorem tokenize_determines_swallowed :
    tokenize "#01#xa" = .ok [⟨.arg 1, ⟨1, 1⟩⟩, ⟨.error ⟨"#"⟩, ⟨1, 4⟩⟩, ⟨.char "a", ⟨1, 6⟩⟩]
      ∧ tokenize "#01#ya" = .ok [⟨.arg 1, ⟨1, 1⟩⟩, ⟨.error ⟨"#"⟩, ⟨1, 4⟩⟩, ⟨.char "a", ⟨1, 6⟩⟩]
      ∧ "#01#xa".length = "#01#ya".length
      ∧ Swallowed [⟨.arg 1, ⟨1, 1⟩⟩, ⟨.error ⟨"#"⟩, ⟨1, 4⟩⟩, ⟨.char "a", ⟨1, 6⟩⟩] .origin
          "#01#xa".toList 4 := by
  have h : tokenize "#01#xa"
      = .ok [⟨.arg 1, ⟨1, 1⟩⟩, ⟨.error ⟨"#"⟩, ⟨1, 4⟩⟩, ⟨.char "a", ⟨1, 6⟩⟩] := by decide +kernel
  have h' : tokenize "#01#ya"
      = .ok [⟨.arg 1, ⟨1, 1⟩⟩, ⟨.error ⟨"#"⟩, ⟨1, 4⟩⟩, ⟨.char "a", ⟨1, 6⟩⟩] := by decide +kernel
  obtain ⟨hlength, hindex, -⟩ := tokenize_determines h h' (by decide)
  refine ⟨h, h', hlength, ?_⟩
  rcases hindex 4 'x' 'y' rfl rfl with heq | ⟨hswallowed, -⟩
  · exact absurd heq (by decide)
  · exact hswallowed

end TexMath
