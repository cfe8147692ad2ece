/-
Quoted text can be read back.

# One character

`unescape` reads a character from the text that it is written in: itself,
or a backslash with a letter, with hexadecimal digits, or with the
character. It need not know the quote that was chosen, since an escaped
quote is read like any other character behind a backslash. The letters in
front of digits are never escapes of their own, so one look behind the
backslash tells the forms apart (`unescape_escape`).

# One text

An escape does not start with the quote, so the first quote that is not
part of an escape ends the text. Quoted texts can therefore be told apart
with anything behind them (`quotedChars_append_inj`), the quote being the
first character of each.
-/
import TexMath.Text.Quoted

namespace TexMath.Text

-- =============================================================== hexadecimal

/-- The value of a hexadecimal digit in lower case. -/
def hexDigitValue (c : Char) : Nat :=
  if c.toNat ≤ '9'.toNat then c.toNat - '0'.toNat else c.toNat - 'a'.toNat + 10

/-- The value that hexadecimal digits write. -/
def hexValue (digits : List Char) : Nat :=
  digits.foldl (fun value c => 16 * value + hexDigitValue c) 0

theorem hexDigitValue_digitChar : ∀ n < 16, hexDigitValue n.digitChar = n := by
  decide

theorem newline_ne_digitChar : ∀ n < 16, '\n' ≠ n.digitChar := by
  decide

theorem length_hexDigits (width n : Nat) : (hexDigits width n).length = width := by
  induction width generalizing n with
  | zero => rfl
  | succ width ih => simp [hexDigits, ih]

theorem hexValue_hexDigits (width n : Nat) :
    hexValue (hexDigits width n) = n % Nat.pow 16 width := by
  induction width generalizing n with
  | zero => exact (Nat.mod_one n).symm
  | succ width ih =>
    have hlast := hexDigitValue_digitChar (n % 16) (Nat.mod_lt n (by decide))
    have hothers : hexValue (hexDigits width (n / 16)) = _ := ih (n / 16)
    rw [hexDigits, hexValue, List.foldl_append, ← hexValue, hothers, List.foldl_cons,
      List.foldl_nil, hlast, Nat.pow_eq, Nat.pow_eq, Nat.pow_succ', Nat.mod_mul, Nat.add_comm]

theorem exists_of_mem_hexDigits {width n : Nat} {c : Char} (h : c ∈ hexDigits width n) :
    ∃ d < 16, c = d.digitChar := by
  induction width generalizing n with
  | zero => cases h
  | succ width ih =>
    rw [hexDigits, List.mem_append, List.mem_singleton] at h
    rcases h with h | h
    · exact ih h
    · exact ⟨n % 16, Nat.mod_lt n (by decide), h⟩

-- ============================================================= one character

/-- How many hexadecimal digits stand behind a backslash and this letter. -/
def hexWidth? (mark : Char) : Option Nat :=
  if mark = 'x' then some 2
  else if mark = 'u' then some 4
  else if mark = 'U' then some 8
  else none

/-- What a backslash and this character write, when no digits follow. -/
def named (mark : Char) : Char :=
  if mark = 'n' then '\n'
  else if mark = 'r' then '\r'
  else if mark = 't' then '\t'
  else mark

/-- The character that an escaped text starts with, and the text behind
it. -/
def unescape : List Char → Option (Char × List Char)
  | [] => none
  | ['\\'] => none
  | '\\' :: mark :: rest =>
    match hexWidth? mark with
    | some width => some (Char.ofNat (hexValue (rest.take width)), rest.drop width)
    | none => some (named mark, rest)
  | c :: rest => some (c, rest)

variable {quote : Char}

theorem unescape_named {mark : Char} (h : hexWidth? mark = none) (rest : List Char) :
    unescape ('\\' :: mark :: rest) = some (named mark, rest) := by
  simp [unescape, h]

theorem unescape_plain {c : Char} (h : c ≠ '\\') (rest : List Char) :
    unescape (c :: rest) = some (c, rest) := by
  simp [unescape, h]

theorem unescape_hexDigits {mark : Char} {width : Nat} (h : hexWidth? mark = some width) (c : Char)
    (hc : c.toNat < Nat.pow 16 width) (rest : List Char) :
    unescape ('\\' :: mark :: hexDigits width c.toNat ++ rest) = some (c, rest) := by
  have htake : (hexDigits width c.toNat ++ rest).take width = hexDigits width c.toNat :=
    List.take_left' (length_hexDigits width c.toNat)
  have hdrop : (hexDigits width c.toNat ++ rest).drop width = rest :=
    List.drop_left' (length_hexDigits width c.toNat)
  simp only [List.cons_append, unescape, h, htake, hdrop, hexValue_hexDigits, Nat.mod_eq_of_lt hc,
    Char.ofNat_toNat]

/-- A hexadecimal escape has as many digits as its letter announces, and
they are enough. -/
theorem exists_hexEscape_eq (c : Char) :
    ∃ mark width, hexWidth? mark = some width ∧ c.toNat < Nat.pow 16 width
      ∧ hexEscape c.toNat = '\\' :: mark :: hexDigits width c.toNat := by
  unfold hexEscape
  split
  · next h => exact ⟨'x', 2, rfl, Nat.lt_succ_of_le h, rfl⟩
  · split
    · next h => exact ⟨'u', 4, rfl, Nat.lt_succ_of_le h, rfl⟩
    · exact ⟨'U', 8, rfl, c.val.toNat_lt, rfl⟩

/-- The character is read back from its escape, whatever follows. -/
theorem unescape_escape (h : quote = '\'' ∨ quote = '"') (c : Char) (rest : List Char) :
    unescape (escape quote c ++ rest) = some (c, rest) := by
  unfold escape
  split
  · next hc =>
    have hsame : hexWidth? c = none ∧ named c = c := by
      rcases h with rfl | rfl <;> rcases hc with rfl | rfl <;> decide
    rw [List.cons_append, List.singleton_append, unescape_named hsame.1, hsame.2]
  · next hc =>
    rw [not_or] at hc
    repeat' split
    · next hn => exact hn ▸ rfl
    · next hr => exact hr ▸ rfl
    · next ht => exact ht ▸ rfl
    · exact unescape_plain hc.2 rest
    · obtain ⟨mark, width, hwidth, hlt, heq⟩ := exists_hexEscape_eq c
      rw [heq]
      exact unescape_hexDigits hwidth c hlt rest

/-- An escape does not start with the quote. -/
theorem exists_escape_eq_cons (h : quote = '\'' ∨ quote = '"') (c : Char) :
    ∃ d run, escape quote c = d :: run ∧ d ≠ quote := by
  have hslash : '\\' ≠ quote := by rcases h with rfl | rfl <;> decide
  unfold escape
  repeat' split
  · exact ⟨_, _, rfl, hslash⟩
  · exact ⟨_, _, rfl, hslash⟩
  · exact ⟨_, _, rfl, hslash⟩
  · exact ⟨_, _, rfl, hslash⟩
  · next hc _ _ _ _ => exact ⟨c, [], rfl, fun heq => hc (.inl heq)⟩
  · obtain ⟨mark, width, -, -, heq⟩ := exists_hexEscape_eq c
    exact ⟨_, _, heq, hslash⟩

theorem newline_notMem_escape (h : quote = '\'' ∨ quote = '"') (c : Char) :
    '\n' ∉ escape quote c := by
  unfold escape
  repeat' split
  · next hc => rcases h with rfl | rfl <;> rcases hc with rfl | rfl <;> decide
  · decide
  · decide
  · decide
  · next hline _ _ _ => simpa using Ne.symm hline
  · obtain ⟨mark, width, hwidth, -, heq⟩ := exists_hexEscape_eq c
    rw [heq, List.mem_cons, List.mem_cons]
    rintro (hslash | rfl | hdigit)
    · cases hslash
    · cases hwidth
    · obtain ⟨d, hlt, hd⟩ := exists_of_mem_hexDigits hdigit
      exact absurd hd (newline_ne_digitChar d hlt)

-- ================================================================== one text

theorem quoteFor_eq (text : List Char) : quoteFor text = '\'' ∨ quoteFor text = '"' := by
  unfold quoteFor
  split
  · exact .inr rfl
  · exact .inl rfl

/-- Escaped texts up to their quote are told apart, whatever is behind
that. -/
theorem flatMap_escape_inj (h : quote = '\'' ∨ quote = '"') {text text' rest rest' : List Char}
    (heq : text.flatMap (escape quote) ++ quote :: rest
      = text'.flatMap (escape quote) ++ quote :: rest') : text = text' ∧ rest = rest' := by
  induction text generalizing text' with
  | nil =>
    cases text' with
    | nil => exact ⟨rfl, (List.cons.inj heq).2⟩
    | cons c text' =>
      obtain ⟨d, run, hc, hd⟩ := exists_escape_eq_cons h c
      rw [List.flatMap_cons, hc] at heq
      exact absurd (List.cons.inj heq).1.symm hd
  | cons c text ih =>
    cases text' with
    | nil =>
      obtain ⟨d, run, hc, hd⟩ := exists_escape_eq_cons h c
      rw [List.flatMap_cons, hc] at heq
      exact absurd (List.cons.inj heq).1 hd
    | cons c' text' =>
      rw [List.flatMap_cons, List.flatMap_cons, List.append_assoc, List.append_assoc] at heq
      have hread := congrArg unescape heq
      rw [unescape_escape h, unescape_escape h, Option.some_inj, Prod.mk.injEq] at hread
      obtain ⟨rfl, hlater⟩ := hread
      obtain ⟨rfl, hrest⟩ := ih hlater
      exact ⟨rfl, hrest⟩

/-- Quoted texts are told apart, whatever is behind them. -/
theorem quotedChars_append_inj {text text' rest rest' : List Char}
    (h : quotedChars text ++ rest = quotedChars text' ++ rest') : text = text' ∧ rest = rest' := by
  unfold quotedChars at h
  simp only [List.cons_append, List.append_assoc] at h
  obtain ⟨hquote, hinside⟩ := List.cons.inj h
  rw [← hquote] at hinside
  exact flatMap_escape_inj (quoteFor_eq text) hinside

theorem quoted_injective : Function.Injective quoted := by
  intro text text' h
  have hchars : quotedChars text.toList = quotedChars text'.toList := String.ofList_injective h
  exact String.toList_inj.1 (quotedChars_append_inj (congrArg (· ++ []) hchars)).1

/-- A quoted text is in one line. -/
theorem newline_notMem_quotedChars (text : List Char) : '\n' ∉ quotedChars text := by
  have hquote := quoteFor_eq text
  have hline : '\n' ≠ quoteFor text := by rcases hquote with h | h <;> rw [h] <;> decide
  unfold quotedChars
  rw [List.mem_append, List.mem_cons, List.mem_singleton, List.mem_flatMap]
  rintro ((hfirst | ⟨c, -, hc⟩) | hlast)
  · exact hline hfirst
  · exact newline_notMem_escape hquote c hc
  · exact hline hlast

end TexMath.Text
