/-
Which tokens may stand side by side.

A lexeme ends where the next one starts, so the first character of the
next lexeme is one that the lexeme did not want. What that character can
be is known from the next token (`Token.StartsWith`): most kinds start
with a character of their own, a run of blanks starts with a blank, and
a plain character is what it is.

# The bridge

`mayPrecede_iff_stopsAt` is the one place where the rules for adjacent
tokens meet the rules for adjacent characters: a lexeme stops at a
character exactly when its token may precede the tokens that start with
it. A lone `#` is the exception, since it is made by the end of the
text, and the token does not show it. Read from right to left the
bridge says that neighbours in a text respect the rules
(`lexable_of_readings`), read from left to right that spellings of
neighbours do not merge.
-/
import TexMath.Proofs.MaximalMunch

namespace TexMath

-- ======================================================== character classes

namespace Text

theorem isDigit_iff {c : Char} : isDigit c = true ↔ 48 ≤ c.toNat ∧ c.toNat ≤ 57 := by
  unfold isDigit
  simp only [Bool.and_eq_true, decide_eq_true_iff, Char.le_def, UInt32.le_iff_toNat_le]
  exact Iff.rfl

theorem isLetter_iff {c : Char} :
    isLetter c = true ↔ 97 ≤ c.toNat ∧ c.toNat ≤ 122 ∨ 65 ≤ c.toNat ∧ c.toNat ≤ 90 := by
  unfold isLetter
  simp only [Bool.or_eq_true, Bool.and_eq_true, decide_eq_true_iff, Char.le_def,
    UInt32.le_iff_toNat_le]
  exact Iff.rfl

theorem isLetter_isDigit_of_isBlank {c : Char} (h : isBlank c = true) :
    isLetter c = false ∧ isDigit c = false := by
  have hapart : ∀ r ∈ blanks, r.2 < 48 ∨ 122 < r.1 := by decide
  have hinRange : blanks.has c = true ↔ ∃ r ∈ blanks, r.1 ≤ c.toNat ∧ c.toNat ≤ r.2 :=
    Ranges.has_iff (by decide) (by unfold Ranges.Increasing; decide)
  obtain ⟨r, hr, hlow, high⟩ := hinRange.1 h
  have := hapart r hr
  rw [← Bool.not_eq_true, ← Bool.not_eq_true, isLetter_iff, isDigit_iff]
  omega

theorem isLetter_isDigit_of_mem_specials {c : Char} (h : c ∈ Token.specials) :
    isLetter c = false ∧ isDigit c = false := by
  have hall : (Token.specials.all fun d => !isLetter d && !isDigit d) = true := by decide
  have hneither := List.all_eq_true.1 hall c h
  rwa [Bool.and_eq_true, Bool.not_eq_true', Bool.not_eq_true'] at hneither

/-- A run of digits writes a number below the power of ten of its length. -/
theorem decimalValue_lt {digits : List Char} (h : ∀ d ∈ digits, isDigit d = true) :
    decimalValue digits < Nat.pow 10 digits.length := by
  have hgeneral : ∀ (run : List Char) (value : Nat), (∀ d ∈ run, isDigit d = true) →
      Nat.ofDigitChars 10 run value < (value + 1) * 10 ^ run.length := by
    intro run
    induction run with
    | nil =>
      intro value _
      rw [Nat.ofDigitChars_nil, List.length_nil, Nat.pow_zero]
      omega
    | cons d run ih =>
      intro value hall
      have hdigit := isDigit_iff.1 (hall d List.mem_cons_self)
      have hstep := ih (10 * value + (d.toNat - '0'.toNat)) fun e he =>
        hall e (List.mem_cons_of_mem _ he)
      have hzero : '0'.toNat = 48 := rfl
      have hgrows : 10 * value + (d.toNat - '0'.toNat) + 1 ≤ (value + 1) * 10 := by omega
      rw [Nat.ofDigitChars_cons, List.length_cons, Nat.pow_succ']
      calc Nat.ofDigitChars 10 run (10 * value + (d.toNat - '0'.toNat))
          < (10 * value + (d.toNat - '0'.toNat) + 1) * 10 ^ run.length := hstep
        _ ≤ (value + 1) * 10 * 10 ^ run.length := Nat.mul_le_mul_right _ hgrows
        _ = (value + 1) * (10 * 10 ^ run.length) := Nat.mul_assoc _ _ _
  have hbelow := hgeneral digits 0 h
  rw [Nat.zero_add, Nat.one_mul] at hbelow
  exact hbelow

end Text

open Text

-- ========================================================= how tokens start

namespace Token

/-- A lexeme that reads as the token starts with the character. -/
def StartsWith : Token → Char → Prop
  | control _, c => c = '\\'
  | brace .left, c => c = '{'
  | brace .right, c => c = '}'
  | arg _, c => c = '#'
  | ampersand, c => c = '&'
  | whitespace text, c => isBlank c = true ∧ text.toList.head? = some c
  | comment _, c => c = '%'
  | char text, c => isBlank c = false ∧ c ∉ specials ∧ text.toList = [c]
  | eof, c => c = '\x00'
  | error _, c => c = '#'

variable {t u : Token} {c : Char}

/-- A token starts with a character that has a meaning of its own, or it
is a run of blanks or a plain character. -/
theorem StartsWith.cases (h : u.StartsWith c) :
    (c ∈ specials ∧ (∀ text, u ≠ whitespace text) ∧ (∀ text, u ≠ char text)
        ∧ (u = eof ↔ c = '\x00'))
      ∨ (∃ text, u = whitespace text ∧ isBlank c = true ∧ text.toList.head? = some c)
      ∨ (∃ text, u = char text ∧ isBlank c = false ∧ c ∉ specials ∧ text.toList = [c]) := by
  have hfixed (d : Char) (hd : d ∈ specials ∧ d ≠ '\x00') (hc : c = d) (hother : u ≠ eof)
      (hblank : ∀ text, u ≠ whitespace text) (hplain : ∀ text, u ≠ char text) :
      c ∈ specials ∧ (∀ text, u ≠ whitespace text) ∧ (∀ text, u ≠ char text)
        ∧ (u = eof ↔ c = '\x00') := by
    subst hc
    exact ⟨hd.1, hblank, hplain, fun hu => absurd hu hother, fun hc => absurd hc hd.2⟩
  cases u with
  | control name => exact .inl (hfixed _ (by decide) h nofun nofun nofun)
  | brace side => cases side <;> exact .inl (hfixed _ (by decide) h nofun nofun nofun)
  | arg number => exact .inl (hfixed _ (by decide) h nofun nofun nofun)
  | ampersand => exact .inl (hfixed _ (by decide) h nofun nofun nofun)
  | whitespace text => exact .inr (.inl ⟨text, rfl, h⟩)
  | comment text => exact .inl (hfixed _ (by decide) h nofun nofun nofun)
  | char text => exact .inr (.inr ⟨text, rfl, h⟩)
  | eof =>
    have hnul : c = '\x00' := h
    subst hnul
    exact .inl ⟨by decide, nofun, nofun, fun _ => rfl, fun _ => rfl⟩
  | error cause => exact .inl (hfixed _ (by decide) h nofun nofun nofun)

/-- Among the first characters only a plain one can be of a class that
has neither blanks nor characters with a meaning of their own. -/
theorem StartsWith.class_iff {p : Char → Bool} (h : u.StartsWith c)
    (hspecial : ∀ d ∈ specials, p d = false) (hblank : ∀ d, isBlank d = true → p d = false) :
    p c = false ↔ ∀ text, u = char text → ∀ d ∈ text.toList, p d = false := by
  rcases h.cases with ⟨hc, -, hplain, -⟩ | ⟨text, rfl, hc, -⟩ | ⟨text, rfl, -, -, honly⟩
  · exact ⟨fun _ text hu => absurd hu (hplain text), fun _ => hspecial c hc⟩
  · exact ⟨fun _ _ hu => (nomatch hu), fun _ => hblank c hc⟩
  · constructor
    · intro hrefused text' hu d hd
      cases hu
      rw [honly, List.mem_singleton] at hd
      rw [hd]
      exact hrefused
    · intro hall
      apply hall text rfl
      rw [honly]
      exact List.mem_singleton.2 rfl

theorem StartsWith.isBlank_iff (h : u.StartsWith c) :
    isBlank c = false ↔ ∀ text, u ≠ whitespace text := by
  rcases h.cases with ⟨hc, hblank, -, -⟩ | ⟨text, rfl, hc, -⟩ | ⟨text, rfl, hc, -, -⟩
  · exact ⟨fun _ => hblank, fun _ => Lexeme.isBlank_of_mem_specials hc⟩
  · rw [hc]
    exact ⟨nofun, fun hnone => absurd rfl (hnone text)⟩
  · exact ⟨fun _ _ hu => (nomatch hu), fun _ => hc⟩

/-- What starts with a character that ends a comment is the end of a
line or of the file. -/
theorem StartsWith.endsComment_iff (h : u.StartsWith c) :
    (c = '\n' ∨ c = '\x00')
      ↔ u = eof ∨ ∃ text, u = whitespace text ∧ text.toList.head? = some '\n' := by
  rcases h.cases with ⟨hc, hblank, -, hnul⟩ | ⟨text, rfl, hc, head⟩ | ⟨text, rfl, hc, hplain, -⟩
  · have hline : c ≠ '\n' := by
      rintro rfl
      exact absurd hc (by decide)
    constructor
    · intro h
      rcases h with rfl | rfl
      · exact absurd rfl hline
      · exact .inl (hnul.2 rfl)
    · intro h
      rcases h with hu | ⟨text, hu, -⟩
      · exact .inr (hnul.1 hu)
      · exact absurd hu (hblank text)
  · constructor
    · intro h
      rcases h with rfl | rfl
      · exact .inr ⟨text, rfl, head⟩
      · exact absurd hc (by decide)
    · intro h
      rcases h with hu | ⟨text', hu, hline⟩
      · cases hu
      · cases hu
        rw [head] at hline
        cases hline
        exact .inl rfl
  · constructor
    · intro h
      rcases h with rfl | rfl
      · exact absurd hc (by decide)
      · exact absurd (by decide) hplain
    · intro h
      rcases h with hu | ⟨text', hu, -⟩ <;> cases hu

-- =============================================================== neighbours

theorem mayPrecede_control {name : String} :
    (control name).MayPrecede u ↔ name.toList ≠ [] ∧ (name.toList.all isLetter = true →
      ∀ text, u = char text → ∀ d ∈ text.toList, isLetter d = false) := by
  rw [List.all_eq_true]
  exact ⟨fun h => ⟨h.1, fun hletters text hu => h.2 text hu hletters⟩,
    fun h => ⟨h.1, fun text hu hletters => h.2 hletters text hu⟩⟩

theorem mayPrecede_arg {n : Int} :
    (arg n).MayPrecede u ↔ ∀ text, u = char text → ∀ d ∈ text.toList, isDigit d = false := by
  cases u with
  | char text => exact ⟨fun h text' hu => by cases hu; exact h, fun h => h text rfl⟩
  | _ => exact ⟨fun _ _ hu => (nomatch hu), fun _ => trivial⟩

theorem mayPrecede_whitespace {text : String} :
    (whitespace text).MayPrecede u ↔ ∀ text', u ≠ whitespace text' := by
  cases u with
  | whitespace text' => exact ⟨False.elim, fun h => absurd rfl (h text')⟩
  | _ => exact ⟨fun _ _ hu => (nomatch hu), fun _ => trivial⟩

theorem mayPrecede_comment {text : String} :
    (comment text).MayPrecede u
      ↔ u = eof ∨ ∃ text', u = whitespace text' ∧ text'.toList.head? = some '\n' := by
  cases u with
  | eof => exact ⟨fun _ => .inl rfl, fun _ => trivial⟩
  | whitespace text' =>
    constructor
    · intro hline
      exact .inr ⟨text', rfl, hline⟩
    · intro h
      rcases h with hu | ⟨text'', hu, hline⟩
      · cases hu
      · cases hu
        exact hline
  | _ => exact ⟨False.elim, fun h => by rcases h with h | ⟨_, h, -⟩ <;> cases h⟩

/-- A lexeme stops in front of a character exactly when its token may
precede the tokens that start with the character. -/
theorem mayPrecede_iff_stopsAt {x : Lexeme} (more : List Char) (hread : x.reading = .ok t)
    (h : u.StartsWith c) (hswallows : ∀ cause, t = error cause → x.text ≠ ['#']) :
    t.MayPrecede u ↔ x.StopsAt (c :: more) := by
  have hrefuses {p : Char → Bool} (hwants : x.wants = some p) :
      x.StopsAt (c :: more) ↔ p c = false := by
    rw [Lexeme.stopsAt_iff hwants]
    exact ⟨fun hall => hall c rfl, fun hrefused d hd => by cases hd; exact hrefused⟩
  cases t with
  | control name =>
    rw [mayPrecede_control]
    by_cases hempty : name.toList = []
    · have hwants : x.wants = some fun _ => true :=
        (Lexeme.wants_of_reading hread).trans (if_pos hempty)
      rw [hrefuses hwants]
      exact ⟨fun hmay => absurd hempty hmay.1, fun hrefused => nomatch hrefused⟩
    · by_cases hletters : name.toList.all isLetter = true
      · have hwants : x.wants = some isLetter :=
          (Lexeme.wants_of_reading hread).trans ((if_neg hempty).trans (if_pos hletters))
        rw [hrefuses hwants, h.class_iff (fun d hd => (isLetter_isDigit_of_mem_specials hd).1)
          fun d hd => (isLetter_isDigit_of_isBlank hd).1]
        exact ⟨fun hmay => hmay.2 hletters, fun hall => ⟨hempty, fun _ => hall⟩⟩
      · have hwants : x.wants = none :=
          (Lexeme.wants_of_reading hread).trans ((if_neg hempty).trans (if_neg hletters))
        exact ⟨fun _ => Lexeme.stopsAt_of_wants_none _ hwants,
          fun _ => ⟨hempty, fun hall => absurd hall hletters⟩⟩
  | arg number =>
    have hwants : x.wants = some isDigit := Lexeme.wants_of_reading hread
    rw [hrefuses hwants, mayPrecede_arg]
    exact (h.class_iff (fun d hd => (isLetter_isDigit_of_mem_specials hd).2)
      fun d hd => (isLetter_isDigit_of_isBlank hd).2).symm
  | whitespace text =>
    have hwants : x.wants = some isBlank := Lexeme.wants_of_reading hread
    rw [hrefuses hwants, mayPrecede_whitespace, h.isBlank_iff]
  | comment text =>
    have hwants : x.wants = some fun d => d ≠ '\n' && d ≠ '\x00' :=
      Lexeme.wants_of_reading hread
    rw [hrefuses hwants, mayPrecede_comment, ← h.endsComment_iff]
    simp only [Bool.and_eq_false_iff, decide_eq_false_iff_not, not_not]
  | error cause =>
    have hwants : x.wants = none :=
      (Lexeme.wants_of_reading hread).trans (if_neg (hswallows cause rfl))
    exact ⟨fun _ => Lexeme.stopsAt_of_wants_none _ hwants, fun _ => trivial⟩
  | _ =>
    have hwants : x.wants = none := Lexeme.wants_of_reading hread
    exact ⟨fun _ => Lexeme.stopsAt_of_wants_none _ hwants, fun _ => trivial⟩

/-- A lexeme that stops in front of a character has a token that may
precede what starts with it, the lone `#` included. -/
theorem mayPrecede_of_stopsAt {x : Lexeme} {more : List Char} (hread : x.reading = .ok t)
    (h : u.StartsWith c) (hstops : x.StopsAt (c :: more)) : t.MayPrecede u := by
  by_cases hlone : ∃ cause, t = error cause
  · obtain ⟨cause, rfl⟩ := hlone
    trivial
  · exact (mayPrecede_iff_stopsAt more hread h fun cause ht => absurd ⟨cause, ht⟩ hlone).2 hstops

end Token

-- ===================================================== the tokens of a text

namespace Munch

open Token

variable {c : Char} {rest w : List Char} {t : Token}

theorem startsWith (h : Munch (c :: rest) w t) : t.StartsWith c := by
  cases h with
  | blank _ _ hblank =>
    refine ⟨hblank, ?_⟩
    rw [String.toList_ofList, List.takeWhile_cons_of_pos hblank]
    rfl
  | char _ _ hblank hplain => exact ⟨hblank, hplain, String.toList_ofList⟩
  | _ => exact rfl

theorem wellFormed {r : List Char} (h : Munch r w t) : t.WellFormed := by
  cases h with
  | left => trivial
  | right => trivial
  | ampersand => trivial
  | nul => trivial
  | nameless => exact .inl fun c hc => nomatch hc
  | word c rest hletter =>
    refine .inl fun d hd => ?_
    rw [String.toList_ofList] at hd
    exact List.mem_takeWhile_imp hd
  | symbol c rest hletter => exact .inr ⟨c, String.toList_ofList, hletter⟩
  | comment rest =>
    have hfree : ∀ d ∈ rest.takeWhile (fun d => d ≠ '\n' && d ≠ '\x00'), d ≠ '\n' ∧ d ≠ '\x00' := by
      intro d hd
      have := List.mem_takeWhile_imp hd
      simpa only [Bool.and_eq_true, decide_eq_true_eq] using this
    show _ ∉ (String.ofList _).toList ∧ _ ∉ (String.ofList _).toList
    rw [String.toList_ofList]
    exact ⟨fun hline => (hfree _ hline).1 rfl, fun hnul => (hfree _ hnul).2 rfl⟩
  | number c rest hdigit hshort =>
    have hbelow := decimalValue_lt fun d hd => List.mem_takeWhile_imp (l := c :: rest) hd
    have hlimit := Nat.pow_le_pow_right (n := 10) (by decide) hshort
    refine ⟨Int.natCast_nonneg _, ?_⟩
    have hbound : ((10 ^ digitLimit : Nat) : Int) = Int.pow 10 digitLimit :=
      Int.natCast_pow 10 digitLimit
    rw [← hbound]
    exact Int.ofNat_lt.2 (Nat.lt_of_lt_of_le hbelow hlimit)
  | illegal rest => rfl
  | blank c rest hblank =>
    show (String.ofList _).toList ≠ [] ∧ ∀ d ∈ (String.ofList _).toList, isBlank d = true
    rw [String.toList_ofList]
    refine ⟨?_, fun d hd => List.mem_takeWhile_imp hd⟩
    rw [List.takeWhile_cons_of_pos hblank]
    exact List.cons_ne_nil _ _
  | char c rest hblank hplain => exact ⟨c, String.toList_ofList, hblank, hplain⟩

end Munch

namespace Token

theorem lexable_cons {t : Token} {tokens : List Token} :
    Lexable (t :: tokens)
      ↔ t.WellFormed ∧ (∀ u ∈ tokens.head?, t.MayPrecede u) ∧ Lexable tokens := by
  cases tokens with
  | nil => exact ⟨fun h => ⟨h, nofun, trivial⟩, fun h => h.1⟩
  | cons u tokens =>
    constructor
    · intro h
      obtain ⟨hwhole, hmay, hlater⟩ := h
      exact ⟨hwhole, fun v hv => by cases hv; exact hmay, hlater⟩
    · intro h
      obtain ⟨hwhole, hmay, hlater⟩ := h
      exact ⟨hwhole, hmay u rfl, hlater⟩

theorem startsWith_of_readings {text : List Char} {tokens : List (Located Token)} {s : Span}
    {u : Token} (h : Lexeme.readings s (Lexeme.split text) = tokens.map .ok)
    (hu : u ∈ (tokens.map Located.val).head?) :
    ∃ c rest, text = c :: rest ∧ u.StartsWith c := by
  cases tokens with
  | nil => cases hu
  | cons t tokens =>
    cases hu
    obtain ⟨c, rest, rfl⟩ := List.exists_cons_of_ne_nil (Lexeme.ne_nil_of_readings h)
    obtain ⟨w, -, -, hmunch, -, -⟩ := Lexeme.exists_of_readings_cons h
    exact ⟨c, rest, rfl, hmunch.startsWith⟩

/-- The tokens of a text are well formed, and each one may precede the
one behind it. -/
theorem lexable_of_readings {text : List Char} {tokens : List (Located Token)} {s : Span}
    (h : Lexeme.readings s (Lexeme.split text) = tokens.map .ok) :
    Lexable (tokens.map Located.val) := by
  fun_induction Lexeme.split text generalizing s tokens with
  | case1 =>
    cases tokens with
    | nil => trivial
    | cons t tokens => cases h
  | case2 c rest ih =>
    cases tokens with
    | nil => cases h
    | cons t tokens =>
      obtain ⟨head, hbehind⟩ := List.cons.inj h
      obtain ⟨hread, -⟩ := Lexeme.reading_of_located head
      refine lexable_cons.2 ⟨(Lexeme.munch_first hread).wellFormed, ?_, ih hbehind⟩
      intro u hu
      obtain ⟨d, more, hlater, hstarts⟩ := startsWith_of_readings hbehind hu
      have hstops := Lexeme.first_stopsAt c rest
      rw [hlater] at hstops
      exact mayPrecede_of_stopsAt hread hstarts hstops

end Token

end TexMath
