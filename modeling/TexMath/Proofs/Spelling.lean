/-
The token lists that texts have: exactly the lexable ones.

Every well-formed token has a spelling, the shortest text that reads as
it, save that a lexical error is written with a second `#` for the
character that it swallows: a lone `#` would swallow the start of the
next spelling instead. A spelling on its own reads as its token
(`first_spelling`), and it goes on doing so in front of the spelling of
a token that may follow it, because the lexeme stops there. So the
spellings of a lexable list, written one behind the other, are cut into
those spellings again (`split_spellings`).

That neighbours in a text are lexable is the other half
(`Token.lexable_of_readings`); together they say which token lists are
in the image of the lexer.
-/
import TexMath.Proofs.Adjacency

namespace TexMath

open Text

namespace Token

variable {t : Token}

-- ================================================================ spellings

/-- A text that reads as the token when the token is well formed. -/
def spelling : Token → List Char
  | control name => '\\' :: name.toList
  | brace .left => ['{']
  | brace .right => ['}']
  | arg number => '#' :: Nat.toDigits 10 number.toNat
  | ampersand => ['&']
  | whitespace text => text.toList
  | comment text => '%' :: text.toList
  | char text => text.toList
  | eof => ['\x00']
  | error _ => ['#', '#']

private theorem withRun_all {start run : List Char} {p : Char → Bool}
    (read : List Char → Except Fault Token) (h : ∀ d ∈ run, p d = true) :
    Lexeme.withRun start p read run = (⟨start ++ run, read run⟩, []) := by
  unfold Lexeme.withRun
  rw [List.takeWhile_eq_self_iff.2 h, List.dropWhile_eq_nil_iff.2 h]

/-- The digits of a number within the limit read as that number. -/
private theorem number_toDigits {n : Int} (h : 0 ≤ n ∧ n < Int.pow 10 digitLimit) :
    Lexeme.number (Nat.toDigits 10 n.toNat) = .ok (.arg n) := by
  have hbelow : n.toNat < 10 ^ digitLimit := by
    rw [← Int.ofNat_lt, Int.natCast_pow, Int.toNat_of_nonneg h.1]
    exact h.2
  have hshort := (Nat.length_toDigits_le_iff (b := 10) (by decide) (by decide)).2 hbelow
  have hvalue : decimalValue (Nat.toDigits 10 n.toNat) = n.toNat := Nat.ofDigitChars_ten_toDigits
  unfold Lexeme.number
  rw [if_pos hshort, hvalue, Int.toNat_of_nonneg h.1]

/-- A spelling on its own is one lexeme and reads as its token. -/
theorem first_spelling (h : t.WellFormed) :
    ∃ c run, t.spelling = c :: run ∧ Lexeme.first c run = (⟨t.spelling, .ok t⟩, []) := by
  cases t with
  | control name =>
    refine ⟨'\\', name.toList, rfl, ?_⟩
    have htext : String.ofList name.toList = name := String.ofList_toList
    rw [show (control name).spelling = '\\' :: name.toList from rfl]
    rcases h with hletters | ⟨c, honly, hletter⟩
    · cases hrun : name.toList with
      | nil =>
        rw [hrun] at htext
        subst htext
        rfl
      | cons c more =>
        rw [hrun] at hletters htext
        rw [Lexeme.first_of_letter more (hletters c List.mem_cons_self), withRun_all _ hletters,
          htext]
        rfl
    · rw [honly] at htext ⊢
      rw [Lexeme.first_of_symbol [] hletter, htext]
  | brace side => cases side <;> exact ⟨_, [], rfl, rfl⟩
  | arg n =>
    refine ⟨'#', Nat.toDigits 10 n.toNat, rfl, ?_⟩
    have hdigits : ∀ d ∈ Nat.toDigits 10 n.toNat, isDigit d = true := fun d hd =>
      Nat.isDigit_of_mem_toDigits (by decide) (by decide) hd
    rw [show (arg n).spelling = '#' :: Nat.toDigits 10 n.toNat from rfl]
    cases hrun : Nat.toDigits 10 n.toNat with
    | nil => exact absurd hrun Nat.toDigits_ne_nil
    | cons d more =>
      have hvalue := number_toDigits h
      rw [hrun] at hdigits hvalue
      rw [Lexeme.first_of_digit more (hdigits d List.mem_cons_self), withRun_all _ hdigits, hvalue]
      rfl
  | ampersand => exact ⟨_, [], rfl, rfl⟩
  | whitespace text =>
    obtain ⟨hnonempty, hblank⟩ := h
    obtain ⟨c, run, hsplit⟩ := List.exists_cons_of_ne_nil hnonempty
    refine ⟨c, run, hsplit, ?_⟩
    have hwhole : String.ofList text.toList = text := String.ofList_toList
    rw [show (whitespace text).spelling = text.toList from rfl]
    rw [hsplit] at hblank hwhole ⊢
    rw [Lexeme.first_of_blank run (hblank c List.mem_cons_self),
      withRun_all _ fun d hd => hblank d (List.mem_cons_of_mem c hd), hwhole]
    rfl
  | comment text =>
    refine ⟨'%', text.toList, rfl, ?_⟩
    have hinside : ∀ d ∈ text.toList, (d ≠ '\n' && d ≠ '\x00') = true := by
      intro d hd
      rw [Bool.and_eq_true, decide_eq_true_eq, decide_eq_true_eq]
      exact ⟨fun hline => h.1 (hline ▸ hd), fun hnul => h.2 (hnul ▸ hd)⟩
    rw [show (comment text).spelling = '%' :: text.toList from rfl]
    rw [Lexeme.first_percent, withRun_all _ hinside, String.ofList_toList]
    rfl
  | char text =>
    obtain ⟨c, honly, hblank, hplain⟩ := h
    refine ⟨c, [], honly, ?_⟩
    have hwhole : String.ofList text.toList = text := String.ofList_toList
    rw [show (char text).spelling = text.toList from rfl]
    rw [honly] at hwhole ⊢
    rw [Lexeme.first_of_plain [] hblank hplain, hwhole]
  | eof => exact ⟨_, [], rfl, rfl⟩
  | error cause =>
    obtain ⟨char⟩ := cause
    cases h
    exact ⟨'#', ['#'], rfl, rfl⟩

theorem startsWith_spelling (h : t.WellFormed) :
    ∃ c run, t.spelling = c :: run ∧ t.StartsWith c := by
  obtain ⟨c, run, hspelled, hfirst⟩ := first_spelling h
  have hread : (Lexeme.first c run).1.reading = .ok t := by rw [hfirst]
  exact ⟨c, run, hspelled, (Lexeme.munch_first hread).startsWith⟩

-- =========================================== spellings one behind the other

/-- A spelling stops in front of the spellings of what may follow it. -/
theorem stopsAt_spellings {tokens : List Token} (h : Lexable (t :: tokens)) :
    Lexeme.StopsAt ⟨t.spelling, .ok t⟩ (tokens.map spelling).flatten := by
  obtain ⟨hwhole, hmay, hlater⟩ := lexable_cons.1 h
  cases tokens with
  | nil =>
    obtain ⟨c, run, -, hfirst⟩ := first_spelling hwhole
    have hstops := Lexeme.first_stopsAt c run
    rwa [hfirst] at hstops
  | cons u tokens =>
    obtain ⟨d, more, hspelled, hstarts⟩ := startsWith_spelling (lexable_cons.1 hlater).1
    rw [List.map_cons, List.flatten_cons, hspelled]
    -- the spelling of an error has the character that it swallows
    have hswallows : ∀ cause, t = error cause → t.spelling ≠ ['#'] := by
      rintro cause rfl
      show ['#', '#'] ≠ ['#']
      decide
    exact (mayPrecede_iff_stopsAt _ rfl hstarts hswallows).1 (hmay u rfl)

/-- The spellings of a lexable list do not merge. -/
theorem split_spellings {tokens : List Token} (h : Lexable tokens) :
    Lexeme.split (tokens.map spelling).flatten = tokens.map fun t => ⟨t.spelling, .ok t⟩ := by
  induction tokens with
  | nil =>
    show Lexeme.split [] = []
    rw [Lexeme.split]
  | cons t tokens ih =>
    obtain ⟨hwhole, -, hlater⟩ := lexable_cons.1 h
    obtain ⟨c, run, hspelled, hfirst⟩ := first_spelling hwhole
    have hstops := stopsAt_spellings h
    have hcut : Lexeme.first c (run ++ (tokens.map spelling).flatten)
        = (⟨t.spelling, .ok t⟩, (tokens.map spelling).flatten) := by
      rw [Lexeme.first_append_of_stopsAt (by rw [hfirst]; exact hstops), hfirst]
      rfl
    rw [List.map_cons, List.flatten_cons, hspelled, List.cons_append, Lexeme.split, hcut, ih hlater]
    rfl

end Token

-- ============================================================ whole strings

/-- Lexemes that all read as tokens, located one behind the other. -/
theorem Lexeme.readings_of_tokens (s : Span) (tokens : List Token) (text : Token → List Char) :
    ∃ located : List (Located Token), located.map Located.val = tokens ∧
      readings s (tokens.map fun t => ⟨text t, .ok t⟩) = located.map .ok := by
  induction tokens generalizing s with
  | nil => exact ⟨[], rfl, rfl⟩
  | cons t tokens ih =>
    obtain ⟨located, hvals, hread⟩ := ih (s.afterAll (text t))
    refine ⟨⟨t, s⟩ :: located, ?_, ?_⟩
    · rw [List.map_cons, hvals]
    · show _ :: readings _ (tokens.map fun t => ⟨text t, .ok t⟩) = _ :: located.map .ok
      rw [hread]
      rfl

/-- The token lists that strings have are the lexable ones. -/
theorem exists_tokenize_iff_lexable (tokens : List Token) :
    (∃ code located, tokenize code = .ok located ∧ located.map Located.val = tokens)
      ↔ Token.Lexable tokens := by
  constructor
  · intro h
    obtain ⟨code, located, hrun, rfl⟩ := h
    exact Token.lexable_of_readings (tokenize_eq_ok_iff.1 hrun)
  · intro h
    obtain ⟨located, hvals, hread⟩ := Lexeme.readings_of_tokens .origin tokens Token.spelling
    refine ⟨String.ofList (tokens.map Token.spelling).flatten, located, ?_, hvals⟩
    rw [tokenize_eq_ok_iff, String.toList_ofList, Token.split_spellings h, hread]

end TexMath
