/-
The lexer is lazy: how many characters it has asked its source for.

# The account

Over a string every event is a character, so what has been pulled and what
is unread make up the text, save that a character of lookahead is both
(`CharStream.pulled_of_reaches`). What is unread behind some calls is what
the lexemes behind those of the calls make up (`Lexer.unread_after`), and
whether a character is held is known from the last call alone
(`CharStream.lookahead_nextToken`).

# The lookahead

A call looks one character past its lexeme when only a look can tell that
the lexeme is over. That shows in the text of the lexeme (`Lexeme.endsInRun`):
names, numbers, comments and blanks end with a run, and everything else is
over with its last character. The end of the string may cut a lexeme short
before it shows what it is, but no character is held there.
-/
import TexMath.Proofs.DigitLimit
import TexMath.Proofs.Fused
import TexMath.Proofs.Lookahead

namespace TexMath

open Text

-- ========================================================== lexemes with runs

namespace Lexeme

/-- The text of a lexeme that ends with a run: a name, a `#` with digits, a
comment, or blanks. -/
def endsInRun : List Char → Bool
  | '\\' :: c :: _ => isLetter c
  | '#' :: c :: _ => isDigit c
  | '%' :: _ => true
  | c :: _ => isBlank c
  | [] => false

theorem endsInRun_of_not_special {c : Char} (run : List Char) (h : c ∉ Token.specials) :
    endsInRun (c :: run) = isBlank c := by
  obtain ⟨-, -, -, -, h5, h6, h7⟩ := ne_of_not_special h
  unfold endsInRun
  split <;> simp_all

/-- With text behind it, a lexeme wants more exactly when it ends with a
run. -/
theorem isSome_wants_first {c : Char} {rest : List Char} (h : (first c rest).2 ≠ []) :
    (first c rest).1.wants.isSome = endsInRun (first c rest).1.text := by
  induction c using startCases with
  | left => rfl
  | right => rfl
  | ampersand => rfl
  | nul => rfl
  | backslash =>
    cases rest with
    | nil => exact absurd rfl h
    | cons d rest =>
      cases letter : isLetter d with
      | true =>
        rw [wants_name rest letter, first_of_letter rest letter]
        simp [withRun, List.takeWhile_cons_of_pos letter, endsInRun, letter]
      | false =>
        rw [first_of_symbol rest letter, wants_symbol _ letter]
        exact letter.symm
  | hash =>
    cases rest with
    | nil => exact absurd rfl h
    | cons d rest =>
      cases digit : isDigit d with
      | true =>
        rw [first_of_digit rest digit]
        simp [withRun, wants_number, List.takeWhile_cons_of_pos digit, endsInRun, digit]
      | false =>
        rw [first_of_illegal rest digit]
        exact digit.symm
  | percent => rfl
  | blank c blank =>
    rw [first_of_blank rest blank]
    exact ((endsInRun_of_not_special _ (not_special_of_isBlank blank)).trans blank).symm
  | plain c blank plain =>
    rw [first_of_plain rest blank plain]
    exact ((endsInRun_of_not_special _ plain).trans blank).symm

end Lexeme

/-- Behind the first lexeme of a text a character is held exactly when the
lexeme ends with a run and is not all of the text. -/
theorem Unread.count_placeBehindToken (c : Char) (rest : List Char) (s : Span) :
    (placeBehindToken ⟨(c :: rest).map .char, s⟩).count
      = if Lexeme.endsInRun (Lexeme.first c rest).1.text = true ∧ (Lexeme.first c rest).2 ≠ []
        then 1 else 0 := by
  have text : Unread.text ⟨(c :: rest).map .char, s⟩ = c :: rest := by
    have all := Event.leading_append (c :: rest) []
    rw [List.append_nil] at all
    exact all.trans (List.append_nil _)
  have left := past_text (c :: rest) (Lexeme.first c rest).1.text (Lexeme.first c rest).2 s
    (show Event.leading [] = [] from rfl)
  rw [List.append_nil, List.append_nil] at left
  unfold placeBehindToken placeBehind
  rw [text]
  dsimp only
  rw [left]
  cases hrest : (Lexeme.first c rest).2 with
  | nil =>
    simp only [ne_eq, not_true, and_false, if_false]
    split <;> rfl
  | cons d more =>
    rw [Lexeme.isSome_wants_first (by rw [hrest]; exact List.cons_ne_nil d more)]
    simp only [ne_eq, reduceCtorEq, not_false_eq_true, and_true]
    split <;> rfl

-- ================================================================ the account

namespace CharStream

theorem fromEnd_of_text (text : List Char) : Event.fromEnd (text.map .char) = [] := by
  simp [Event.fromEnd]

/-- Over a text, what the source has left is a part of the text, and what
is unread is that and the character of lookahead. -/
theorem left_of_reaches {text : List Char} {t : CharStream}
    (h : (ofSource (.ofList text)).Reaches t) :
    ∃ taken left, text = taken ++ left ∧ t.source.events = left.map .char
      ∧ t.source.pulled = taken.length
      ∧ t.unread.events.length = left.length + t.lookahead.count := by
  have hended : t.lookahead = .ended → t.source.events = [] := by
    intro hended
    rw [(left_of_ended h hended).1, fromEnd_of_text]
    rfl
  obtain ⟨steps, rfl⟩ := h
  obtain ⟨asked, haccounts⟩ := (ofSource (.ofList text)).accounts_run steps
  generalize ((ofSource (.ofList text)).run steps).2 = t at haccounts hended
  obtain ⟨taken, left, htext, htaken, hleft⟩ := List.map_eq_append_iff.1 haccounts.source
  refine ⟨taken, left, htext, hleft.symm, ?_, ?_⟩
  · rw [haccounts.pulled, ← htaken, Event.handed_text]
    exact Nat.zero_add _
  · have hlength : left.length = t.source.events.length := by rw [← hleft, List.length_map]
    rw [hlength]
    unfold unread
    split
    · next hheld => simp [hheld, Lookahead.count]
    · next hempty => simp [hempty, Lookahead.count]
    · next hend => simp [hend, hended hend, Lookahead.count]

/-- Over a text, what has been pulled and what is unread make up the text,
but for a character of lookahead, which is both. -/
theorem pulled_of_reaches {text : List Char} {t : CharStream}
    (h : (ofSource (.ofList text)).Reaches t) :
    t.source.pulled + t.unread.events.length = text.length + t.lookahead.count := by
  obtain ⟨taken, left, rfl, -, hpulled, hunread⟩ := left_of_reaches h
  rw [hpulled, hunread, List.length_append, Nat.add_assoc]

end CharStream

-- ================================================================= some calls

namespace Lexer

/-- The lexer that `n` calls for a token leave. -/
def after (lexer : Lexer) : Nat → Lexer
  | 0 => lexer
  | n + 1 => lexer.nextToken.2.after n

theorem after_succ (lexer : Lexer) (n : Nat) :
    lexer.after (n + 1) = (lexer.after n).nextToken.2 := by
  induction n generalizing lexer with
  | zero => rfl
  | succ n ih => exact ih lexer.nextToken.2

theorem reaches_after (lexer : Lexer) (n : Nat) : lexer.chars.Reaches (lexer.after n).chars := by
  induction n generalizing lexer with
  | zero => exact .refl _
  | succ n ih => exact lexer.reaches_nextToken.trans (ih lexer.nextToken.2)

variable {lexer : Lexer} {text : List Char} {s : Span} {k : Nat}

/-- Over a text, calls that do not find the end read one lexeme each, and
leave the text that is made of the others. -/
theorem unread_after (h : lexer.chars.Coherent) (hu : lexer.chars.unread = ⟨text.map .char, s⟩)
    (hk : .ok none ∉ lexer.calls k) :
    k ≤ (Lexeme.split text).length
      ∧ lexer.calls k = (Lexeme.readings s ((Lexeme.split text).take k)).map (Except.map some)
      ∧ (lexer.after k).chars.Coherent
      ∧ ∃ rest position, (lexer.after k).chars.unread = ⟨rest.map .char, position⟩
          ∧ Lexeme.split rest = (Lexeme.split text).drop k := by
  induction k generalizing lexer text s with
  | zero => exact ⟨Nat.zero_le _, rfl, h, text, s, hu, rfl⟩
  | succ k ih =>
    obtain ⟨htoken, hcoherent⟩ := token_unread h
    rw [hu] at htoken
    cases text with
    | nil =>
      have hend : lexer.nextToken.1 = .ok none := (Prod.mk.inj htoken).1.symm
      exact absurd (hend ▸ List.mem_cons_self) hk
    | cons c rest =>
      have hlexeme := Unread.token_of_lexeme c rest [] s rfl (.inr (.inr rfl))
      rw [List.append_nil, List.append_nil, htoken] at hlexeme
      obtain ⟨hanswer, hleft⟩ := Prod.mk.inj hlexeme
      obtain ⟨hle, hcalls, hafter⟩ :=
        ih hcoherent hleft fun hmem => hk (List.mem_cons_of_mem _ hmem)
      rw [Lexeme.split]
      refine ⟨Nat.succ_le_succ hle, ?_, hafter⟩
      show lexer.nextToken.1 :: lexer.nextToken.2.calls k = _
      rw [hanswer, hcalls]
      rfl

theorem calls_succ (lexer : Lexer) (n : Nat) :
    lexer.calls (n + 1) = lexer.calls n ++ [(lexer.after n).nextToken.1] := by
  induction n generalizing lexer with
  | zero => rfl
  | succ n ih => exact congrArg (lexer.nextToken.1 :: ·) (ih lexer.nextToken.2)

/-- Behind such calls a character is held exactly when the lexeme of the
last one ends with a run and is not the last one of the text. -/
theorem count_lookahead_after (h : lexer.chars.Coherent) (hempty : lexer.chars.lookahead = .empty)
    (hu : lexer.chars.unread = ⟨text.map .char, s⟩) (hk : .ok none ∉ lexer.calls k) :
    (lexer.after k).chars.lookahead.count
      = if ((Lexeme.split text).take k).getLast?.any (Lexeme.endsInRun ·.text) = true
          ∧ k < (Lexeme.split text).length then 1 else 0 := by
  cases k with
  | zero =>
    show lexer.chars.lookahead.count = _
    rw [hempty]
    rfl
  | succ k =>
    obtain ⟨hlong, -⟩ := unread_after h hu hk
    have hfewer : .ok none ∉ lexer.calls k := by
      rw [calls_succ] at hk
      exact fun hmem => hk (List.mem_append_left _ hmem)
    obtain ⟨-, -, hcoherent, rest, position, hunread, hrest⟩ := unread_after h hu hfewer
    -- the last of the calls reads the first lexeme of what the others leave
    cases rest with
    | nil =>
      rw [Lexeme.split, eq_comm, List.drop_eq_nil_iff] at hrest
      exact absurd hlong (Nat.not_lt_of_le hrest)
    | cons c more =>
      rw [Lexeme.split] at hrest
      have hlast : (Lexeme.split text)[k]? = some (Lexeme.first c more).1 := by
        rw [← List.head?_drop, ← hrest]
        rfl
      have hlater : (Lexeme.split text).drop (k + 1) = Lexeme.split (Lexeme.first c more).2 := by
        rw [← List.tail_drop, ← hrest]
        rfl
      have hbehind : k + 1 < (Lexeme.split text).length ↔ (Lexeme.first c more).2 ≠ [] := by
        rw [← Nat.not_le, ← List.drop_eq_nil_iff, hlater, Lexeme.split_eq_nil_iff]
      rw [after_succ, chars_nextToken, CharStream.lookahead_nextToken hcoherent, hunread,
        Unread.count_placeBehindToken, List.take_add_one, hlast]
      simp [hbehind]

end Lexer

-- ============================================================= whole strings

/-- Calls over a string that do not find its end read the lexemes of its
greedy split in order. Behind them as many characters have been pulled as
those lexemes hold, none of which is empty, and one more, the character of
lookahead, exactly when the last of them ends with a run and they are not
all of the string. -/
theorem calls_pull (code : String) (debug : Bool) {k : Nat}
    (h : .ok none ∉ (Lexer.ofString code debug).calls k) :
    ∃ lexemes, (∀ other, GreedySplit code.toList other ↔ other = lexemes)
      ∧ (∀ x ∈ lexemes, x.text ≠ [])
      ∧ k ≤ lexemes.length
      ∧ (Lexer.ofString code debug).calls k
          = (Lexeme.readings .origin (lexemes.take k)).map (Except.map some)
      ∧ let text := ((lexemes.take k).map Lexeme.text).flatten
        let s := ((Lexer.ofString code debug).after k).chars
        s.source.pulled = text.length + s.lookahead.count
        ∧ s.lookahead.count
            = if (lexemes.take k).getLast?.any (Lexeme.endsInRun ·.text) = true
                ∧ text ≠ code.toList then 1 else 0 := by
  have hstart : (Lexer.ofString code debug).chars.Coherent := CharStream.coherent_ofSource _
  obtain ⟨hle, hcalls, -, rest, position, hunread, hrest⟩ := Lexer.unread_after hstart rfl h
  refine ⟨Lexeme.split code.toList, fun other => greedySplit_iff,
    fun x hx => Lexeme.text_ne_nil_of_mem_split hx, hle, hcalls, ?_⟩
  intro text s
  have hwhole : text ++ rest = code.toList := by
    have hleft := Lexeme.flatten_split rest
    rw [hrest] at hleft
    rw [← hleft, ← List.flatten_append, ← List.map_append, List.take_append_drop,
      Lexeme.flatten_split]
  constructor
  · have hreaches : (CharStream.ofSource (.ofList code.toList)).Reaches s :=
      (Lexer.ofString code debug).reaches_after k
    have hpulled := CharStream.pulled_of_reaches hreaches
    rw [hunread, List.length_map, ← hwhole, List.length_append] at hpulled
    change s.source.pulled + rest.length = text.length + rest.length + s.lookahead.count at hpulled
    omega
  · have hmore : k < (Lexeme.split code.toList).length ↔ text ≠ code.toList := by
      rw [← Nat.not_le, ← List.drop_eq_nil_iff, ← hrest, Lexeme.split_eq_nil_iff, ← hwhole, Ne,
        List.self_eq_append_right]
    rw [Lexer.count_lookahead_after hstart rfl rfl h]
    simp only [hmore]

/-- The name ends where the ampersand is seen, which has been pulled by then. -/
theorem calls_pull_name :
    .ok none ∉ (Lexer.ofString "\\ab&\n" false).calls 1
      ∧ ((Lexer.ofString "\\ab&\n" false).after 1).chars.source.pulled = 4
      ∧ ((Lexer.ofString "\\ab&\n" false).after 1).chars.lookahead.count = 1 := by
  have hcalls : .ok none ∉ (Lexer.ofString "\\ab&\n" false).calls 1 := by decide +kernel
  obtain ⟨lexemes, hsplit, -, -, -, hpulled, hcount⟩ := calls_pull "\\ab&\n" false hcalls
  obtain rfl := (hsplit _).1 (greedySplit_iff.2 rfl)
  rw [hcount] at hpulled
  exact ⟨hcalls, hpulled.trans (by decide +kernel), hcount.trans (by decide +kernel)⟩

end TexMath
