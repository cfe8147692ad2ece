/-
The tokens of a string are those of its greedy reading.

# The grammar

`Munch r w t` says of a text `r` that still has to be read: its first
lexeme is `w`, and `w` reads as `t`. There is one rule for each way a
lexeme may start, and the rules exclude each other: a rule with a run
takes the whole of the longest one, and the last two rules are for the
characters that no other rule is for. The grammar speaks of texts only;
it has no stream, no lookahead and no state.

# The theorem

If a string has tokens, its text is cut into as many lexemes, none of
them empty. Each one is the greedy first lexeme of the text from there
on, reads as its token, and starts where the token is located
(`tokenize_munches`). The induction is over the cutting of the text,
with the location of the next lexeme carried along.
-/
import TexMath.Proofs.Outcomes
import TexMath.Proofs.Splitting

namespace TexMath

open Text

-- ============================================================== the grammar

/-- The first lexeme of the text `r`, read greedily, is `w`, and reads as
the token `t`. -/
inductive Munch : (r w : List Char) → (t : Token) → Prop
  | left (rest) : Munch ('{' :: rest) ['{'] (.brace .left)
  | right (rest) : Munch ('}' :: rest) ['}'] (.brace .right)
  | ampersand (rest) : Munch ('&' :: rest) ['&'] .ampersand
  | nul (rest) : Munch ('\x00' :: rest) ['\x00'] .eof
  /-- A backslash at the end of the text has no name. -/
  | nameless : Munch ['\\'] ['\\'] (.control "")
  | word (c rest) (h : isLetter c = true) :
      Munch ('\\' :: c :: rest) ('\\' :: (c :: rest).takeWhile isLetter)
        (.control (String.ofList ((c :: rest).takeWhile isLetter)))
  | symbol (c rest) (h : isLetter c = false) :
      Munch ('\\' :: c :: rest) ['\\', c] (.control (String.ofList [c]))
  | comment (rest) :
      Munch ('%' :: rest) ('%' :: rest.takeWhile fun d => d ≠ '\n' && d ≠ '\x00')
        (.comment (String.ofList (rest.takeWhile fun d => d ≠ '\n' && d ≠ '\x00')))
  /-- A run of more digits than the limit does not read as a token. -/
  | number (c rest) (h : isDigit c = true)
      (short : ((c :: rest).takeWhile isDigit).length ≤ digitLimit) :
      Munch ('#' :: c :: rest) ('#' :: (c :: rest).takeWhile isDigit)
        (.arg (decimalValue ((c :: rest).takeWhile isDigit)))
  /-- The character behind a `#`, if there is one, goes with the error. -/
  | illegal (rest) (h : ∀ c ∈ rest.head?, isDigit c = false) :
      Munch ('#' :: rest) ('#' :: rest.take 1) (.error ⟨"#"⟩)
  | blank (c rest) (h : isBlank c = true) :
      Munch (c :: rest) ((c :: rest).takeWhile isBlank)
        (.whitespace (String.ofList ((c :: rest).takeWhile isBlank)))
  | char (c rest) (h : isBlank c = false) (plain : c ∉ Token.specials) :
      Munch (c :: rest) [c] (.char (String.ofList [c]))

/-- The text is cut into lexemes that are each the greedy reading of what
is left there, and the tokens are what they read as, located where they
start. -/
def Munches (text : List Char) (tokens : List (Located Token)) : Prop :=
  ∃ lexemes : List (List Char),
    lexemes.flatten = text ∧ lexemes.length = tokens.length ∧ (∀ w ∈ lexemes, w ≠ []) ∧
      ∀ i w token, lexemes[i]? = some w → tokens[i]? = some token →
        Munch (lexemes.drop i).flatten w token.val ∧
          token.span = Span.origin.afterAll (lexemes.take i).flatten

-- ========================================================= the first lexeme

namespace Lexeme

/-- A run of digits that is read as a number keeps to the limit, and the
number is the value it writes. -/
theorem eq_of_number_eq_ok {digits : List Char} {t : Token} (h : number digits = .ok t) :
    digits.length ≤ digitLimit ∧ t = .arg (decimalValue digits) := by
  unfold number at h
  split at h
  · next hshort =>
    cases h
    exact ⟨hshort, rfl⟩
  · cases h

/-- The first lexeme of a text is the greedy one. -/
theorem munch_first {c : Char} {rest : List Char} {t : Token}
    (h : (first c rest).1.reading = .ok t) : Munch (c :: rest) (first c rest).1.text t := by
  induction c using startCases with
  | left => cases h; exact .left rest
  | right => cases h; exact .right rest
  | ampersand => cases h; exact .ampersand rest
  | nul => cases h; exact .nul rest
  | backslash =>
    cases rest with
    | nil => cases h; exact .nameless
    | cons d rest =>
      cases hletter : isLetter d with
      | true =>
        rw [first_of_letter rest hletter] at h ⊢
        cases h
        exact .word d rest hletter
      | false =>
        rw [first_of_symbol rest hletter] at h ⊢
        cases h
        exact .symbol d rest hletter
  | hash =>
    cases rest with
    | nil =>
      cases h
      exact .illegal [] fun c hc => by cases hc
    | cons d rest =>
      cases hdigit : isDigit d with
      | true =>
        rw [first_of_digit rest hdigit] at h ⊢
        obtain ⟨hshort, rfl⟩ := eq_of_number_eq_ok h
        exact .number d rest hdigit hshort
      | false =>
        rw [first_of_illegal rest hdigit] at h ⊢
        cases h
        exact .illegal (d :: rest) fun c hc => by cases hc; exact hdigit
  | percent => cases h; exact .comment rest
  | blank c hblank =>
    have hrun : c :: rest.takeWhile isBlank = (c :: rest).takeWhile isBlank :=
      (List.takeWhile_cons_of_pos hblank).symm
    rw [first_of_blank rest hblank] at h ⊢
    cases h
    show Munch (c :: rest) (c :: rest.takeWhile isBlank) _
    rw [hrun]
    exact .blank c rest hblank
  | plain c hblank hplain =>
    rw [first_of_plain rest hblank hplain] at h ⊢
    cases h
    exact .char c rest hblank hplain

-- ============================================================== all lexemes

/-- A text with tokens is the lexeme of the first one and a text with the
others. -/
theorem exists_of_readings_cons {text : List Char} {token : Located Token}
    {tokens : List (Located Token)} {s : Span}
    (h : readings s (split text) = (token :: tokens).map .ok) :
    ∃ w rest, text = w ++ rest ∧ Munch text w token.val ∧ token.span = s
      ∧ readings (s.afterAll w) (split rest) = tokens.map .ok := by
  cases text with
  | nil =>
    rw [split] at h
    cases h
  | cons c rest =>
    rw [split] at h
    obtain ⟨hread, hspan⟩ := reading_of_located (List.cons.inj h).1
    exact ⟨_, _, (first_append c rest).symm, munch_first hread, hspan, (List.cons.inj h).2⟩

/-- Every lexeme of a text that reads as a token is the greedy one of the
text from there on, and the token is located where it starts. -/
theorem munch_split {text : List Char} {tokens : List (Located Token)} {s : Span}
    (h : readings s (split text) = tokens.map .ok) {i : Nat} {x : Lexeme} {token : Located Token}
    (hx : (split text)[i]? = some x) (ht : tokens[i]? = some token) :
    Munch (((split text).drop i).map Lexeme.text).flatten x.text token.val ∧
      token.span = s.afterAll (((split text).take i).map Lexeme.text).flatten := by
  fun_induction split text generalizing s tokens i with
  | case1 => cases hx
  | case2 c rest ih =>
    cases tokens with
    | nil => cases h
    | cons t tokens =>
      have hwhole := flatten_split (c :: rest)
      rw [split] at hwhole
      obtain ⟨head, hbehind⟩ := List.cons.inj h
      cases i with
      | zero =>
        cases hx
        cases ht
        obtain ⟨hread, hlocated⟩ := reading_of_located head
        rw [List.drop_zero, List.take_zero, hwhole]
        exact ⟨munch_first hread, hlocated⟩
      | succ i =>
        rw [List.getElem?_cons_succ] at hx ht
        obtain ⟨hmunch, hlocated⟩ := ih hbehind hx ht
        refine ⟨hmunch, ?_⟩
        rw [hlocated, List.take_succ_cons, List.map_cons, List.flatten_cons, Span.afterAll_append]

/-- Every token of a text is the greedy reading of what is left of the text
where the token is located. -/
theorem exists_munch_of_mem {text : List Char} {tokens : List (Located Token)} {s : Span}
    (h : readings s (split text) = tokens.map .ok) {token : Located Token} (ht : token ∈ tokens) :
    ∃ pre rest w, text = pre ++ rest ∧ Munch rest w token.val ∧ token.span = s.afterAll pre := by
  obtain ⟨i, hi⟩ := List.mem_iff_getElem?.1 ht
  obtain ⟨hlt, -⟩ := List.getElem?_eq_some_iff.1 hi
  rw [← List.length_map, ← h, length_readings] at hlt
  obtain ⟨hmunch, hspan⟩ := munch_split h (List.getElem?_eq_getElem hlt) hi
  have hwhole := flatten_split text
  rw [← List.take_append_drop i (split text), List.map_append, List.flatten_append] at hwhole
  exact ⟨_, _, _, hwhole.symm, hmunch, hspan⟩

end Lexeme

-- ============================================================ whole strings

/-- The tokens of a string are its greedy reading: the text is cut into
non-empty lexemes, each the longest that the grammar gives, one for
every token and where the token is located. -/
theorem tokenize_munches {code : String} {tokens : List (Located Token)}
    (h : tokenize code = .ok tokens) : Munches code.toList tokens := by
  have hrun := tokenize_eq_ok_iff.1 h
  have hcount : (Lexeme.split code.toList).length = tokens.length := by
    rw [← Lexeme.length_readings .origin, hrun, List.length_map]
  refine ⟨(Lexeme.split code.toList).map Lexeme.text, Lexeme.flatten_split _, ?_, ?_, ?_⟩
  · rw [List.length_map, hcount]
  · intro w hw
    obtain ⟨x, hx, rfl⟩ := List.mem_map.1 hw
    exact Lexeme.text_ne_nil_of_mem_split hx
  · intro i w token hw ht
    rw [List.getElem?_map] at hw
    obtain ⟨x, hx, rfl⟩ := Option.map_eq_some_iff.1 hw
    rw [← List.map_drop, ← List.map_take]
    exact Lexeme.munch_split hrun hx ht

theorem tokenize_munches_mixed :
    tokenize "\\ab1% c\n\t#12#\n\\" = .ok
        [⟨.control "ab", ⟨1, 1⟩⟩, ⟨.char "1", ⟨1, 4⟩⟩, ⟨.comment " c", ⟨1, 5⟩⟩,
          ⟨.whitespace "\n\t", ⟨1, 8⟩⟩, ⟨.arg 12, ⟨2, 2⟩⟩, ⟨.error ⟨"#"⟩, ⟨2, 5⟩⟩,
          ⟨.control "", ⟨3, 1⟩⟩] ∧
      Munches "\\ab1% c\n\t#12#\n\\".toList
        [⟨.control "ab", ⟨1, 1⟩⟩, ⟨.char "1", ⟨1, 4⟩⟩, ⟨.comment " c", ⟨1, 5⟩⟩,
          ⟨.whitespace "\n\t", ⟨1, 8⟩⟩, ⟨.arg 12, ⟨2, 2⟩⟩, ⟨.error ⟨"#"⟩, ⟨2, 5⟩⟩,
          ⟨.control "", ⟨3, 1⟩⟩] :=
  ⟨by decide +kernel, tokenize_munches (by decide +kernel)⟩

end TexMath
