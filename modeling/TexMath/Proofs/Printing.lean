/-
Printed tokens are known from their text, and stand one on a line.

# One token

The name of a kind is made of letters, so it ends where the display goes
on with a comma or the closing parenthesis. Of a known kind, what a token
carries displays as a quoted text, a number or the name of a side, and
each of them is known from its display (`Token.display_injective`).
Quoting leaves no newline in a display.

# One line

An integer has no colon and no tab, and a display has no newline. So the
line, the column and the display of a token are cut off one after the
other by the first separator (`tokenLine_append_inj`), and lines are cut
off a text in the same way (`eq_of_tokenLines_eq`).
-/
import TexMath.Proofs.Quoting
import TexMath.Proofs.Responses

namespace TexMath

open Text

-- ================================================================ separators

namespace Text

/-- A run of accepted characters is known up to the first character that is
not accepted. -/
theorem run_append_inj {p : Char → Bool} {run run' rest rest' : List Char} {c c' : Char}
    (hrun : ∀ d ∈ run, p d = true) (hrun' : ∀ d ∈ run', p d = true) (hc : p c = false)
    (hc' : p c' = false) (h : run ++ c :: rest = run' ++ c' :: rest') :
    run = run' ∧ c :: rest = c' :: rest' := by
  have htake := congrArg (List.takeWhile p) h
  rw [List.takeWhile_append_of_pos hrun, List.takeWhile_append_of_pos hrun',
    List.takeWhile_cons_of_neg (by simp [hc]), List.takeWhile_cons_of_neg (by simp [hc']),
    List.append_nil, List.append_nil] at htake
  subst htake
  exact ⟨rfl, List.append_cancel_left h⟩

/-- What stands in front of the first separator is known. -/
theorem append_separator_inj {c : Char} {front front' rest rest' : List Char} (hc : c ∉ front)
    (hc' : c ∉ front') (h : front ++ c :: rest = front' ++ c :: rest') :
    front = front' ∧ rest = rest' := by
  have differs {text : List Char} (hc : c ∉ text) : ∀ d ∈ text, (d ≠ c : Bool) = true :=
    fun d hd => decide_eq_true fun heq => hc (heq ▸ hd)
  obtain ⟨hfront, hrest⟩ := run_append_inj (p := (· ≠ c)) (differs hc) (differs hc') (by simp)
    (by simp) h
  exact ⟨hfront, (List.cons.inj hrest).2⟩

theorem isDigit_of_mem_repr {n : Nat} {c : Char} (h : c ∈ n.repr.toList) : c.isDigit = true := by
  rw [Nat.toList_repr] at h
  exact Nat.isDigit_of_mem_toDigits (by decide) (by decide) h

theorem mem_toString_int {n : Int} {c : Char} (h : c ∈ (toString n).toList) :
    c = '-' ∨ c.isDigit = true := by
  rw [Int.toString_eq_repr, Int.repr_eq_if] at h
  split at h
  · exact .inr (isDigit_of_mem_repr h)
  · rw [String.toList_append, List.mem_append] at h
    exact h.imp (fun hsign => List.mem_singleton.1 hsign) isDigit_of_mem_repr

theorem notMem_toString_int {c : Char} (hsign : c ≠ '-') (hdigit : c.isDigit = false) (n : Int) :
    c ∉ (toString n).toList := fun hmem => by
  rcases mem_toString_int hmem with h | h
  · exact hsign h
  · rw [hdigit] at h
    cases h

/-- The integer that a sign, if there is one, and digits write. -/
def intValue (text : List Char) : Int :=
  if text.head? = some '-' then -decimalValue text.tail else decimalValue text

theorem intValue_toString (n : Int) : intValue (toString n).toList = n := by
  have value (k : Nat) : decimalValue k.repr.toList = k := by
    rw [Nat.toList_repr]
    exact Nat.ofDigitChars_ten_toDigits
  rw [Int.toString_eq_repr, Int.repr_eq_if]
  split
  · have hsign : n.toNat.repr.toList.head? ≠ some '-' := fun hhead =>
      absurd (isDigit_of_mem_repr (List.mem_of_head? hhead)) (by decide)
    rw [intValue, if_neg hsign, value]
    omega
  · rw [String.toList_append, intValue]
    show -(decimalValue (-n).toNat.repr.toList : Int) = n
    rw [value]
    omega

theorem toString_int_injective : Function.Injective (toString : Int → String) := by
  intro a b h
  rw [← intValue_toString a, h, intValue_toString]

end Text

-- ================================================================= one token

theorem Side.name_injective : Function.Injective Side.name := by
  intro a b h
  cases a <;> cases b <;> first | rfl | exact absurd h (by decide)

theorem IllegalCharacter.display_injective : Function.Injective display := by
  intro a b h
  change "IllegalCharacter(" ++ quoted a.char ++ ")" = "IllegalCharacter(" ++ quoted b.char ++ ")"
    at h
  have hchars := String.toList_inj.2 h
  simp only [String.toList_append] at hchars
  have hquoted := List.append_cancel_left (List.append_cancel_right hchars)
  exact congrArg IllegalCharacter.mk (quoted_injective (String.toList_inj.1 hquoted))

namespace Token

namespace Kind

theorem name_injective : Function.Injective name := by
  intro a b h
  cases a <;> cases b <;> first | rfl | exact absurd h (by decide)

theorem isLetter_of_mem_name (k : Kind) : ∀ c ∈ k.name.toList, isLetter c = true := by
  rw [← List.all_eq_true]
  cases k <;> decide

end Kind

variable {t t' : Token}

/-- What follows the name of the kind in the display of a token. -/
def fields (t : Token) : List Char :=
  match t.payload with
  | none => [')']
  | some text => ',' :: ' ' :: text.toList ++ [')']

theorem toList_display (t : Token) :
    t.display.toList = "Token(".toList ++ (t.kind.name.toList ++ t.fields) := by
  unfold display fields
  cases t.payload with
  | none =>
    show ("Token(" ++ t.kind.name ++ ")").toList = _
    rw [String.toList_append, String.toList_append, List.append_assoc]
    rfl
  | some text =>
    show ("Token(" ++ t.kind.name ++ ", " ++ text ++ ")").toList = _
    simp only [String.toList_append, List.append_assoc]
    rfl

theorem fields_eq_cons (t : Token) : ∃ c rest, t.fields = c :: rest ∧ isLetter c = false := by
  unfold fields
  cases t.payload with
  | none => exact ⟨_, _, rfl, rfl⟩
  | some text => exact ⟨_, _, rfl, rfl⟩

theorem payload_eq_of_fields_eq (h : t.fields = t'.fields) : t.payload = t'.payload := by
  unfold fields at h
  cases hp : t.payload with
  | none =>
    cases hp' : t'.payload with
    | none => rfl
    | some text' =>
      rw [hp, hp'] at h
      cases h
  | some text =>
    cases hp' : t'.payload with
    | none =>
      rw [hp, hp'] at h
      cases h
    | some text' =>
      rw [hp, hp'] at h
      have htext := List.append_cancel_right (List.cons.inj (List.cons.inj h).2).2
      rw [String.toList_inj.1 htext]

/-- A token is known from its kind and the display of what it carries. -/
theorem eq_of_kind_of_payload (hkind : t.kind = t'.kind) (h : t.payload = t'.payload) :
    t = t' := by
  cases t <;> cases t' <;> cases hkind
  case control => exact congrArg control (quoted_injective (Option.some.inj h))
  case brace => exact congrArg brace (Side.name_injective (Option.some.inj h))
  case arg => exact congrArg arg (toString_int_injective (Option.some.inj h))
  case ampersand => rfl
  case whitespace => exact congrArg whitespace (quoted_injective (Option.some.inj h))
  case comment => exact congrArg comment (quoted_injective (Option.some.inj h))
  case char => exact congrArg char (quoted_injective (Option.some.inj h))
  case eof => rfl
  case error => exact congrArg error (IllegalCharacter.display_injective (Option.some.inj h))

theorem display_injective : Function.Injective display := by
  intro t t' h
  have hchars := String.toList_inj.2 h
  rw [toList_display, toList_display] at hchars
  obtain ⟨c, rest, hc, hletter⟩ := t.fields_eq_cons
  obtain ⟨c', rest', hc', hletter'⟩ := t'.fields_eq_cons
  have hbehind := List.append_cancel_left hchars
  rw [hc, hc'] at hbehind
  obtain ⟨hname, hfields⟩ := run_append_inj t.kind.isLetter_of_mem_name
    t'.kind.isLetter_of_mem_name hletter hletter' hbehind
  rw [← hc, ← hc'] at hfields
  exact eq_of_kind_of_payload (Kind.name_injective (String.toList_inj.1 hname))
    (payload_eq_of_fields_eq hfields)

theorem newline_notMem_payload {text : String} (h : t.payload = some text) :
    '\n' ∉ text.toList := by
  have quoted (s : String) : '\n' ∉ (Text.quoted s).toList := by
    rw [Text.quoted, String.toList_ofList]
    exact newline_notMem_quotedChars s.toList
  cases t with
  | ampersand => cases h
  | eof => cases h
  | brace side =>
    cases h
    cases side <;> decide
  | arg n =>
    cases h
    exact notMem_toString_int (by decide) (by decide) n
  | error cause =>
    cases h
    show '\n' ∉ ("IllegalCharacter(" ++ Text.quoted cause.char ++ ")").toList
    simp [quoted]
  | _ =>
    cases h
    exact quoted _

theorem newline_notMem_display (t : Token) : '\n' ∉ t.display.toList := by
  have hname : '\n' ∉ t.kind.name.toList := fun hmem =>
    absurd (t.kind.isLetter_of_mem_name _ hmem) (by decide)
  have hfields : '\n' ∉ t.fields := by
    unfold fields
    cases hp : t.payload with
    | none => decide
    | some text => simp [newline_notMem_payload hp]
  rw [toList_display]
  simp [hname, hfields]

end Token

-- ==================================================================== lines

namespace CommandLine

variable {t t' : Located Token} {tokens tokens' : List (Located Token)}

theorem toList_tokenLine (t : Located Token) :
    (tokenLine t).toList = (toString t.span.line).toList
      ++ ':' :: ((toString t.span.column).toList ++ '\t' :: (t.val.display.toList ++ ['\n'])) := by
  show (toString t.span.line ++ ":" ++ toString t.span.column ++ "\t" ++ t.val.display
    ++ "\n").toList = _
  simp

example : (tokenLine ⟨.char "'", ⟨3, 14⟩⟩).toList = "3:14\tToken(CHAR, \"'\")\n".toList := by
  decide +kernel

/-- A printed token is known, whatever is printed behind it. -/
theorem tokenLine_append_inj {rest rest' : List Char}
    (h : (tokenLine t).toList ++ rest = (tokenLine t').toList ++ rest') :
    t = t' ∧ rest = rest' := by
  have hcolon := notMem_toString_int (c := ':') (by decide) (by decide)
  have htab := notMem_toString_int (c := '\t') (by decide) (by decide)
  simp only [toList_tokenLine, List.append_assoc, List.cons_append, List.nil_append] at h
  obtain ⟨hline, h⟩ := append_separator_inj (hcolon _) (hcolon _) h
  obtain ⟨hcolumn, h⟩ := append_separator_inj (htab _) (htab _) h
  obtain ⟨hdisplay, hrest⟩ := append_separator_inj t.val.newline_notMem_display
    t'.val.newline_notMem_display h
  obtain ⟨val, line, column⟩ := t
  obtain ⟨val', line', column'⟩ := t'
  obtain rfl : line = line' := toString_int_injective (String.toList_inj.1 hline)
  obtain rfl : column = column' := toString_int_injective (String.toList_inj.1 hcolumn)
  obtain rfl : val = val' := Token.display_injective (String.toList_inj.1 hdisplay)
  exact ⟨rfl, hrest⟩

/-- A printed token ends with its only newline. -/
theorem exists_tokenLine_eq (t : Located Token) :
    ∃ line, '\n' ∉ line ∧ (tokenLine t).toList = line ++ ['\n'] := by
  have hint := notMem_toString_int (c := '\n') (by decide) (by decide)
  refine ⟨(toString t.span.line).toList
    ++ ':' :: ((toString t.span.column).toList ++ '\t' :: t.val.display.toList), ?_, ?_⟩
  · simp only [List.mem_append, List.mem_cons, not_or]
    exact ⟨hint _, by decide, hint _, by decide, t.val.newline_notMem_display⟩
  · simp [toList_tokenLine]

theorem toList_tokenLines_cons (t : Located Token) (tokens : List (Located Token)) :
    (tokenLines (t :: tokens)).toList = (tokenLine t).toList ++ (tokenLines tokens).toList := by
  simp [tokenLines]

theorem count_newline_tokenLines (tokens : List (Located Token)) :
    (tokenLines tokens).toList.count '\n' = tokens.length := by
  induction tokens with
  | nil => rfl
  | cons t tokens ih =>
    obtain ⟨line, hline, htoken⟩ := exists_tokenLine_eq t
    rw [toList_tokenLines_cons, htoken, List.count_append, List.count_append,
      List.count_eq_zero_of_not_mem hline, ih]
    simp [Nat.add_comm]

theorem eq_of_tokenLines_eq (h : tokenLines tokens = tokenLines tokens') : tokens = tokens' := by
  induction tokens generalizing tokens' with
  | nil =>
    have hcount := count_newline_tokenLines tokens'
    rw [← h] at hcount
    exact (List.length_eq_zero_iff.1 hcount.symm).symm
  | cons t tokens ih =>
    cases tokens' with
    | nil =>
      have hcount := count_newline_tokenLines (t :: tokens)
      rw [h] at hcount
      cases hcount
    | cons t' tokens' =>
      have hchars := String.toList_inj.2 h
      rw [toList_tokenLines_cons, toList_tokenLines_cons] at hchars
      obtain ⟨rfl, hlater⟩ := tokenLine_append_inj hchars
      rw [ih (String.toList_inj.1 hlater)]

/-- Over a source with tokens, the program prints them. -/
theorem output_respondToText {code : String} (h : tokenize code = .ok tokens) (o : Options)
    (source : String) : (respondToText o source code).output = tokenLines tokens := by
  obtain ⟨text, htext⟩ := exists_renderAll h
  rw [respondToText_of_ok h htext]

/-- Located tokens are printed with one newline each, and different ones
are printed differently, whatever their texts hold. What the program prints
over a source are its tokens in this form. -/
theorem tokenLines_unambiguous :
    (∀ tokens, (tokenLines tokens).toList.count '\n' = tokens.length)
      ∧ Function.Injective tokenLines
      ∧ ∀ (o : Options) (source code : String) (tokens), tokenize code = .ok tokens →
          (respondToText o source code).output = tokenLines tokens := by
  refine ⟨count_newline_tokenLines, ?_, ?_⟩
  · intro tokens tokens' h
    exact eq_of_tokenLines_eq h
  · intro o source code tokens h
    exact output_respondToText h o source

end CommandLine

end TexMath
