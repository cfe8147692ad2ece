/-
The digit limit: the one fault that reading a string can have, and how
far it reaches.

# The grammar with its faults

`Munch` leaves texts out that start with a `#` and too many digits.
`Reads` has a rule for them as well: the lexeme is the whole run and what
it reads as is a fault. So every text that is not empty has exactly one
first lexeme, and every text has exactly one greedy split
(`greedySplit_iff`), over-long numbers included.

# A fault is local

An over-long number is an outcome like any other: its digits are gone,
the character behind them is not, and the run goes on there. What stands
to the left decides whether digits are a number at all. Behind a comment,
behind `\#`, behind a `#` with the character that it has swallowed and
behind whatever has no `#`, they are not (`Shields`), and then their
number does not matter: one digit in their place gives the same fault or
the same lack of one (`fault?_of_shields`).

The limit holds for writing numbers out as well. A number that has been
read keeps to it (`decimal_of_mem_tokenize`).
-/
import TexMath.Proofs.Adjacency
import TexMath.Proofs.Concatenation

namespace TexMath

open Text

-- ============================================================== the grammar

/-- The first lexeme of the text `r`, read greedily, is `w`, and this is
what it reads as. -/
inductive Reads : (r w : List Char) → Except Fault Token → Prop
  | token {r w : List Char} {t : Token} (h : Munch r w t) : Reads r w (.ok t)
  | overlong (c rest) (h : isDigit c = true)
      (long : digitLimit < ((c :: rest).takeWhile isDigit).length) :
      Reads ('#' :: c :: rest) ('#' :: (c :: rest).takeWhile isDigit)
        (.error (.tooManyDigits ((c :: rest).takeWhile isDigit).length))

/-- The text is cut into the lexemes, each of them the greedy one. -/
inductive GreedySplit : List Char → List Lexeme → Prop
  | nil : GreedySplit [] []
  | cons {x : Lexeme} {rest : List Char} {later : List Lexeme}
      (h : Reads (x.text ++ rest) x.text x.reading) (behind : GreedySplit rest later) :
      GreedySplit (x.text ++ rest) (x :: later)

namespace Lexeme

/-- The greedy lexeme that reads as a token is the first one. -/
theorem first_of_munch {c : Char} {rest w : List Char} {t : Token}
    (h : Munch (c :: rest) w t) : (first c rest).1 = ⟨w, .ok t⟩ := by
  cases h with
  | word d rest hd => rw [first_of_letter rest hd]; rfl
  | symbol d rest hd => rw [first_of_symbol rest hd]
  | number d rest hd hshort =>
    rw [first_of_digit rest hd]
    simp [withRun, number, hshort]
  | illegal _ hrest =>
    cases rest with
    | nil => rfl
    | cons d rest => rw [first_of_illegal rest (hrest d rfl)]; rfl
  | blank _ _ hc =>
    rw [first_of_blank rest hc, List.takeWhile_cons_of_pos hc]
    rfl
  | char _ _ hc hplain => rw [first_of_plain rest hc hplain]
  | _ => rfl

/-- Only a number reads as a fault, and only for its length. -/
theorem overlong_of_error {c : Char} {rest : List Char} {fault : Fault}
    (h : (first c rest).1.reading = .error fault) :
    ∃ d more, c = '#' ∧ rest = d :: more ∧ isDigit d = true
      ∧ digitLimit < (rest.takeWhile isDigit).length
      ∧ (first c rest).1.text = '#' :: rest.takeWhile isDigit
      ∧ fault = .tooManyDigits (rest.takeWhile isDigit).length := by
  induction c using startCases with
  | hash =>
    cases rest with
    | nil => cases h
    | cons d more =>
      by_cases hd : isDigit d = true
      · rw [first_of_digit more hd] at h ⊢
        simp only [withRun, number] at h
        split at h
        · cases h
        · next hlong =>
          cases h
          exact ⟨d, more, rfl, rfl, hd, Nat.lt_of_not_le hlong, rfl, rfl⟩
      · rw [first_of_illegal more (Bool.eq_false_iff.2 hd)] at h
        cases h
  | backslash =>
    cases rest with
    | nil => cases h
    | cons d more =>
      by_cases hd : isLetter d = true
      · rw [first_of_letter more hd] at h
        cases h
      · rw [first_of_symbol more (Bool.eq_false_iff.2 hd)] at h
        cases h
  | blank c hc => rw [first_of_blank rest hc] at h; cases h
  | plain c hc hplain => rw [first_of_plain rest hc hplain] at h; cases h
  | _ => cases h

/-- The greedy lexeme is the first one, whatever it reads as. -/
theorem reads_iff {c : Char} {rest w : List Char} {reading : Except Fault Token} :
    Reads (c :: rest) w reading ↔ (first c rest).1 = ⟨w, reading⟩ := by
  constructor
  · intro h
    cases h with
    | token hmunch => exact first_of_munch hmunch
    | overlong d more hd hlong =>
      rw [first_of_digit more hd]
      simp [withRun, number, Nat.not_le_of_lt hlong]
  · intro h
    have hreading : (first c rest).1.reading = reading := by rw [h]
    have htext : (first c rest).1.text = w := by rw [h]
    cases reading with
    | ok t => exact .token (htext ▸ munch_first hreading)
    | error fault =>
      obtain ⟨d, more, rfl, rfl, hd, hlong, hw, rfl⟩ := overlong_of_error hreading
      rw [← htext, hw]
      exact .overlong d more hd hlong

end Lexeme

theorem Reads.ne_nil {r w : List Char} {reading : Except Fault Token} (h : Reads r w reading) :
    w ≠ [] := by
  cases h with
  | token hmunch =>
    cases hmunch with
    | blank c rest hc => simp [List.takeWhile_cons_of_pos hc]
    | _ => exact List.cons_ne_nil _ _
  | overlong => exact List.cons_ne_nil _ _

/-- A text has one greedy split. -/
theorem greedySplit_iff {text : List Char} {lexemes : List Lexeme} :
    GreedySplit text lexemes ↔ lexemes = Lexeme.split text := by
  constructor
  · intro h
    induction h with
    | nil => rw [Lexeme.split]
    | @cons x rest later hx hlater ih =>
      obtain ⟨c, run, htext⟩ := List.exists_cons_of_ne_nil hx.ne_nil
      have hall := Lexeme.first_append c (run ++ rest)
      rw [htext, List.cons_append] at hx
      have hfirst : (Lexeme.first c (run ++ rest)).1 = x := by
        rw [Lexeme.reads_iff.1 hx, ← htext]
      have hrest : (Lexeme.first c (run ++ rest)).2 = rest := by
        rw [hfirst, htext] at hall
        simpa using hall
      rw [htext, List.cons_append, Lexeme.split, hfirst, hrest, ih]
  · rintro rfl
    fun_induction Lexeme.split text with
    | case1 => exact .nil
    | case2 c rest ih =>
      have hall := Lexeme.first_append c rest
      have hreads := Lexeme.reads_iff.2 (Eq.refl (Lexeme.first c rest).1)
      rw [← hall] at hreads ⊢
      exact .cons hreads ih

-- ========================================================= over-long numbers

namespace Lexeme

/-- The lexeme is a `#` with `n` digits, which are too many. -/
def Overlong (x : Lexeme) (n : Nat) : Prop :=
  ∃ digits, x.text = '#' :: digits ∧ (∀ d ∈ digits, isDigit d = true)
    ∧ digits.length = n ∧ digitLimit < n

theorem reading_of_overlong {c : Char} {rest : List Char} {n : Nat}
    (h : (first c rest).1.Overlong n) : (first c rest).1.reading = .error (.tooManyDigits n) := by
  obtain ⟨digits, htext, hdigits, rfl, hlong⟩ := h
  obtain ⟨run, hrun, -⟩ := first_cuts c rest
  rw [hrun] at htext
  obtain ⟨rfl, rfl⟩ := List.cons.inj htext
  cases rest with
  | nil =>
    have hnone : run = [] := (List.cons.inj hrun).2.symm
    rw [hnone] at hlong
    exact absurd hlong (Nat.not_lt_zero _)
  | cons d more =>
    by_cases hd : isDigit d = true
    · rw [first_of_digit more hd] at hrun ⊢
      have hsame : (d :: more).takeWhile isDigit = run := (List.cons.inj hrun).2
      simp [withRun, number, hsame, Nat.not_le_of_lt hlong]
    · rw [first_of_illegal more (Bool.eq_false_iff.2 hd)] at hrun
      have hone : [d] = run := (List.cons.inj hrun).2
      exact absurd (hdigits d (hone ▸ List.mem_singleton_self d)) hd

/-- The lexemes of a text that read as a fault are the over-long ones. -/
theorem reading_eq_error_iff {text : List Char} {x : Lexeme} (hx : x ∈ split text)
    (fault : Fault) : x.reading = .error fault ↔ ∃ n, x.Overlong n ∧ fault = .tooManyDigits n := by
  fun_induction split text with
  | case1 => cases hx
  | case2 c rest ih =>
    rcases List.mem_cons.1 hx with rfl | hx
    · constructor
      · intro h
        obtain ⟨d, more, -, -, -, hlong, htext, rfl⟩ := overlong_of_error h
        exact ⟨_, ⟨_, htext, fun e he => List.mem_takeWhile_imp he, rfl, hlong⟩, rfl⟩
      · rintro ⟨n, hn, rfl⟩
        exact reading_of_overlong hn
    · exact ih hx

theorem faultOf?_eq_none_iff {text : List Char} {x : Lexeme} (hx : x ∈ split text) :
    faultOf? x.reading = none ↔ ∀ n, ¬ x.Overlong n := by
  have hiff := reading_eq_error_iff hx
  cases hread : x.reading with
  | ok t =>
    refine iff_of_true rfl fun n hn => ?_
    have herror := (hiff _).2 ⟨n, hn, rfl⟩
    rw [hread] at herror
    cases herror
  | error fault =>
    obtain ⟨n, hn, -⟩ := (hiff fault).1 hread
    exact iff_of_false nofun fun hnone => hnone n hn

/-- The first fault of a text is that of its first over-long lexeme. -/
theorem fault?_eq_some_iff {text : List Char} {fault : Fault} :
    fault? text = some fault ↔ ∃ front x later n, split text = front ++ x :: later
      ∧ (∀ y ∈ front, ∀ m, ¬ y.Overlong m) ∧ x.Overlong n ∧ fault = .tooManyDigits n := by
  unfold fault?
  rw [List.findSome?_eq_some_iff]
  constructor
  · rintro ⟨front, x, later, hsplit, hx, hfront⟩
    have hread : x.reading = .error fault := by
      cases hread : x.reading with
      | ok t => rw [hread] at hx; cases hx
      | error other => rw [hread] at hx; cases hx; rfl
    have hmem : x ∈ split text := by simp [hsplit]
    obtain ⟨n, hn, rfl⟩ := (reading_eq_error_iff hmem fault).1 hread
    refine ⟨front, x, later, n, hsplit, fun y hy => ?_, hn, rfl⟩
    have hmem' : y ∈ split text := by simp [hsplit, hy]
    exact (faultOf?_eq_none_iff hmem').1 (hfront y hy)
  · rintro ⟨front, x, later, n, hsplit, hfront, hn, rfl⟩
    refine ⟨front, x, later, hsplit, ?_, fun y hy => ?_⟩
    · have hmem : x ∈ split text := by simp [hsplit]
      rw [(reading_eq_error_iff hmem _).2 ⟨n, hn, rfl⟩]
      rfl
    · have hmem : y ∈ split text := by simp [hsplit, hy]
      exact (faultOf?_eq_none_iff hmem).2 (hfront y hy)

end Lexeme

-- ======================================================= digits and no number

/-- Digits behind such a lexeme are no number: a comment takes them in,
`\#` and a `#` with what it has swallowed are complete, and any other
lexeme that is none has no `#`. -/
inductive Shields : List Char → Prop
  | comment (text) : Shields ('%' :: text)
  | symbol : Shields ['\\', '#']
  | swallowed (c) (h : isDigit c = false) : Shields ['#', c]
  | unmarked (w) (h : '#' ∉ w) : Shields w

namespace Lexeme

variable {c : Char} {rest v digits : List Char}

theorem fault?_of_ok {x : Lexeme} {t : Token} {later : List Char} (hx : first c rest = (x, later))
    (hread : x.reading = .ok t) : fault? (c :: rest) = fault? later := by
  unfold fault?
  rw [split, hx, List.findSome?_cons, hread]
  rfl

theorem plain_of_isDigit (h : isDigit c = true) :
    isBlank c = false ∧ c ∉ Token.specials ∧ isLetter c = false := by
  refine ⟨?_, ?_, ?_⟩
  · by_contra hblank
    rw [Bool.not_eq_false] at hblank
    rw [(isLetter_isDigit_of_isBlank hblank).2] at h
    cases h
  · intro hspecial
    rw [(isLetter_isDigit_of_mem_specials hspecial).2] at h
    cases h
  · rw [isDigit_iff] at h
    rw [← Bool.not_eq_true, isLetter_iff]
    omega

theorem fault?_digits (h : ∀ d ∈ digits, isDigit d = true) : fault? (digits ++ v) = fault? v := by
  induction digits with
  | nil => rfl
  | cons d digits ih =>
    obtain ⟨hblank, hplain, -⟩ := plain_of_isDigit (h d List.mem_cons_self)
    rw [List.cons_append, fault?_of_ok (first_of_plain _ hblank hplain) rfl]
    exact ih fun e he => h e (List.mem_cons_of_mem d he)

/-- Digits that the last lexeme refuses stand alone. -/
theorem fault?_append_digits {t : Token} (hend : (first c rest).2 = [])
    (hread : (first c rest).1.reading = .ok t)
    (hwants : ∀ p ∈ (first c rest).1.wants, ∀ d, isDigit d = true → p d = false)
    (hne : digits ≠ []) (hd : ∀ d ∈ digits, isDigit d = true) :
    fault? (c :: rest ++ (digits ++ v)) = fault? v := by
  obtain ⟨d, more, rfl⟩ := List.exists_cons_of_ne_nil hne
  have hstop : (first c rest).1.StopsAt ((first c rest).2 ++ (d :: more ++ v)) := by
    rw [hend]
    intro p hp e he
    cases he
    exact hwants p hp d (hd d List.mem_cons_self)
  have hsame := first_append_of_stopsAt hstop
  rw [hend, List.nil_append] at hsame
  rw [List.cons_append, fault?_of_ok hsame hread, fault?_digits hd]

/-- Behind a backslash the first digit is the name, and the others stand
alone. -/
theorem fault?_backslash_digits (hne : digits ≠ []) (hd : ∀ d ∈ digits, isDigit d = true) :
    fault? ('\\' :: (digits ++ v)) = fault? v := by
  obtain ⟨d, more, rfl⟩ := List.exists_cons_of_ne_nil hne
  obtain ⟨-, -, hletter⟩ := plain_of_isDigit (hd d List.mem_cons_self)
  rw [List.cons_append, fault?_of_ok (first_of_symbol _ hletter) rfl]
  exact fault?_digits fun e he => hd e (List.mem_cons_of_mem d he)

/-- A comment takes digits in. -/
theorem fault?_comment_digits (hend : (first '%' rest).2 = [])
    (hd : ∀ d ∈ digits, isDigit d = true) :
    fault? ('%' :: rest ++ (digits ++ v))
      = fault? (v.dropWhile fun d => d ≠ '\n' && d ≠ '\x00') := by
  have hrest := List.dropWhile_eq_nil_iff.1 hend
  have hdigits : ∀ d ∈ digits, (d ≠ '\n' && d ≠ '\x00') = true := by
    intro d hmem
    have hdigit := isDigit_iff.1 (hd d hmem)
    by_contra hstop
    rw [Bool.and_eq_true, decide_eq_true_eq, decide_eq_true_eq, not_and_or, not_not,
      not_not] at hstop
    rcases hstop with rfl | rfl <;> exact absurd hdigit (by decide)
  rw [List.cons_append, fault?_of_ok (first_percent _) rfl]
  rw [List.dropWhile_append_of_pos hrest, List.dropWhile_append_of_pos hdigits]

/-- A lexeme that shields digits refuses them, but for a backslash on its
own and a comment. -/
theorem refuses_of_shields (h : Shields (c :: rest)) :
    (∃ t, (first c rest).1.reading = .ok t
        ∧ ∀ p ∈ (first c rest).1.wants, ∀ d, isDigit d = true → p d = false)
      ∨ (c = '\\' ∧ rest = []) ∨ c = '%' := by
  induction c using startCases with
  | left => exact .inl ⟨_, rfl, nofun⟩
  | right => exact .inl ⟨_, rfl, nofun⟩
  | ampersand => exact .inl ⟨_, rfl, nofun⟩
  | nul => exact .inl ⟨_, rfl, nofun⟩
  | backslash =>
    cases rest with
    | nil => exact .inr (.inl ⟨rfl, rfl⟩)
    | cons d more =>
      left
      by_cases hd : isLetter d = true
      · refine ⟨_, by rw [first_of_letter more hd]; rfl, fun p hp e he => ?_⟩
        rw [wants_name more hd] at hp
        cases hp
        exact (plain_of_isDigit he).2.2
      · rw [Bool.not_eq_true] at hd
        rw [first_of_symbol more hd]
        refine ⟨_, rfl, fun p hp => ?_⟩
        rw [wants_symbol _ hd] at hp
        cases hp
  | hash =>
    cases h with
    | swallowed d hd =>
      rw [first_of_illegal [] hd]
      exact .inl ⟨_, rfl, nofun⟩
    | unmarked _ hmem => exact absurd List.mem_cons_self hmem
  | percent => exact .inr (.inr rfl)
  | blank c hc =>
    rw [first_of_blank rest hc]
    refine .inl ⟨_, rfl, fun p hp d hd => ?_⟩
    cases hp
    exact (plain_of_isDigit hd).1
  | plain c hc hplain =>
    rw [first_of_plain rest hc hplain]
    exact .inl ⟨_, rfl, nofun⟩

/-- Digits behind a lexeme that shields them leave a fault where it would
be without them, however many they are. -/
theorem fault?_first_of_shields (hend : (first c rest).2 = []) (h : Shields (c :: rest))
    (v : List Char) : ∃ w, ∀ digits, digits ≠ [] → (∀ d ∈ digits, isDigit d = true) →
      fault? (c :: rest ++ (digits ++ v)) = fault? w := by
  rcases refuses_of_shields h with ⟨t, hread, hwants⟩ | ⟨rfl, rfl⟩ | rfl
  · exact ⟨v, fun digits hne hd => fault?_append_digits hend hread hwants hne hd⟩
  · exact ⟨v, fun digits hne hd => fault?_backslash_digits hne hd⟩
  · exact ⟨_, fun digits _ hd => fault?_comment_digits hend hd⟩

/-- Behind a text whose last lexeme shields them, digits cause no fault:
any others in their place would do. -/
theorem fault?_of_shields {u digits' : List Char}
    (hu : ∀ x ∈ (split u).getLast?, Shields x.text) (hne : digits ≠ [])
    (hd : ∀ d ∈ digits, isDigit d = true) (hne' : digits' ≠ [])
    (hd' : ∀ d ∈ digits', isDigit d = true) :
    fault? (u ++ (digits ++ v)) = fault? (u ++ (digits' ++ v)) := by
  rcases eq_nil_or_split_concat u with rfl | ⟨front, x, hx⟩
  · rw [List.nil_append, List.nil_append, fault?_digits hd, fault?_digits hd']
  · obtain ⟨c, rest, htext, hfirst, happend⟩ := split_append_last hx
    have hshields : Shields (c :: rest) := htext ▸ hu x (by simp [hx])
    obtain ⟨w, hw⟩ := fault?_first_of_shields (by rw [hfirst]) hshields v
    have hsame := (hw digits hne hd).trans (hw digits' hne' hd').symm
    unfold fault? at hsame ⊢
    rw [happend, happend, List.findSome?_append, List.findSome?_append, hsame]

end Lexeme

-- ============================================================= whole strings

/-- A run of digits writes a number that does not need more of them. -/
theorem decimalValue_lt_pow {digits : List Char} (hd : ∀ d ∈ digits, isDigit d = true)
    {limit : Nat} (hlength : digits.length ≤ limit) :
    decimalValue digits < Nat.pow 10 limit :=
  Nat.lt_of_lt_of_le (decimalValue_lt hd) (Nat.pow_le_pow_right (by decide) hlength)

/-- A number that has been read is short enough to be written out, so a token
of a string always has a display. -/
theorem decimal_of_mem_tokenize {code : String} {tokens : List (Located Token)}
    (h : tokenize code = .ok tokens) {token : Located Token} (ht : token ∈ tokens) {n : Int}
    (hn : token.val = .arg n) : decimal n = .ok (toString n) := by
  obtain ⟨-, rest, w, -, hmunch, -⟩ :=
    Lexeme.exists_munch_of_mem (tokenize_eq_ok_iff.1 h) ht
  rw [hn] at hmunch
  cases hmunch with
  | number c rest hc hshort =>
    have hdigits : ∀ d ∈ (c :: rest).takeWhile isDigit, isDigit d = true := fun d hd =>
      List.mem_takeWhile_imp hd
    have hvalue := decimalValue_lt_pow hdigits hshort
    refine decimal_of_lt ?_
    -- the bound is opened by name, so that it is never computed
    unfold decimalBound
    exact hvalue

/-- The calls for the tokens of a string have one outcome for each lexeme
of its greedy split, an over-long number being the only one that fails.
So the string has no tokens exactly when there is such a number, and the
first one is reported; digits that no `#` has claimed are none. -/
theorem outcomes_greedy (code : String) (debug : Bool) :
    ∃ lexemes, (∀ other, GreedySplit code.toList other ↔ other = lexemes)
      ∧ (Lexer.ofString code debug).outcomes = Lexeme.readings .origin lexemes
      ∧ (∀ x ∈ lexemes, ∀ fault, x.reading = .error fault
          ↔ ∃ n, x.Overlong n ∧ fault = .tooManyDigits n)
      ∧ (∀ fault, tokenize code = .error fault ↔ ∃ front x later n,
          lexemes = front ++ x :: later ∧ (∀ y ∈ front, ∀ m, ¬ y.Overlong m)
            ∧ x.Overlong n ∧ fault = .tooManyDigits n)
      ∧ ∀ u digits v, code.toList = u ++ (digits ++ v) → digits ≠ [] →
          (∀ d ∈ digits, isDigit d = true) →
          (u = [] ∨ ∃ front x, GreedySplit u (front ++ [x]) ∧ Shields x.text) →
          ∀ fault, tokenize code = .error fault
            ↔ tokenize (String.ofList (u ++ '0' :: v)) = .error fault := by
  refine ⟨Lexeme.split code.toList, fun other => greedySplit_iff,
    Lexer.outcomes_ofString code debug, fun x hx => Lexeme.reading_eq_error_iff hx, fun fault => ?_,
    fun u digits v hcode hne hd hu fault => ?_⟩
  · rw [tokenize_eq_error_iff, Lexeme.fault?_eq_some_iff]
  · have hlast : ∀ x ∈ (Lexeme.split u).getLast?, Shields x.text := by
      intro x hx
      rcases hu with rfl | ⟨front, y, hy, hshields⟩
      · simp [Lexeme.split] at hx
      · rw [← greedySplit_iff.1 hy, List.getLast?_concat] at hx
        cases hx
        exact hshields
    have hzero : ∀ d ∈ ['0'], isDigit d = true := by
      intro d hd
      rw [List.mem_singleton.1 hd]
      decide
    rw [tokenize_eq_error_iff, tokenize_eq_error_iff, hcode, String.toList_ofList,
      Lexeme.fault?_of_shields hlast hne hd (List.cons_ne_nil '0' []) hzero]
    rfl

/-- A `#` with one digit too many is reported with their number. Behind
`##` the same digits are plain characters. -/
theorem outcomes_greedy_ones :
    tokenize (String.ofList ('#' :: '1' :: List.replicate 4300 '1')) = .error (.tooManyDigits 4301)
      ∧ (tokenize (String.ofList ('#' :: '#' :: List.replicate 4301 '1'))).isOk = true := by
  have hones (n : Nat) : ∀ d ∈ List.replicate n '1', isDigit d = true := by
    intro d hd
    rw [List.eq_of_mem_replicate hd]
    decide
  have hmarked (n : Nat) (hn : digitLimit < n + 1) :
      tokenize (String.ofList ('#' :: '1' :: List.replicate n '1'))
        = .error (.tooManyDigits (n + 1)) := by
    obtain ⟨lexemes, hsplit, -, -, hfault, -⟩ :=
      outcomes_greedy (String.ofList ('#' :: '1' :: List.replicate n '1')) false
    have hrun : ('1' :: List.replicate n '1').takeWhile isDigit = '1' :: List.replicate n '1' :=
      List.takeWhile_eq_self_iff.2 (hones (n + 1))
    have hreads := Reads.overlong '1' (List.replicate n '1') (by decide)
    rw [hrun, List.length_cons, List.length_replicate] at hreads
    let x : Lexeme := ⟨'#' :: '1' :: List.replicate n '1', .error (.tooManyDigits (n + 1))⟩
    have hcut : GreedySplit (x.text ++ []) [x] :=
      .cons (by rw [List.append_nil]; exact hreads hn) .nil
    rw [List.append_nil] at hcut
    have hlexemes := (hsplit [x]).1 (by rw [String.toList_ofList]; exact hcut)
    refine (hfault _).2 ⟨[], _, _, n + 1, hlexemes.symm, nofun, ?_, rfl⟩
    exact ⟨_, rfl, hones (n + 1), by simp, hn⟩
  refine ⟨hmarked 4300 (by decide), ?_⟩
  obtain ⟨-, -, -, -, -, hdigits⟩ :=
    outcomes_greedy (String.ofList ('#' :: '#' :: List.replicate 4301 '1')) false
  have hcut : GreedySplit ['#', '#'] ([] ++ [⟨['#', '#'], .ok (.error ⟨"#"⟩)⟩]) :=
    greedySplit_iff.2 (by decide +kernel)
  have hsame := hdigits ['#', '#'] (List.replicate 4301 '1') []
    (by rw [String.toList_ofList, List.append_nil]; rfl)
    (List.cons_ne_nil '1' _) (hones 4301) (.inr ⟨_, _, hcut, .swallowed '#' (by decide)⟩)
  have hok : (tokenize (String.ofList ['#', '#', '0'])).isOk = true := by decide +kernel
  cases hrun : tokenize (String.ofList ('#' :: '#' :: List.replicate 4301 '1')) with
  | ok tokens => rfl
  | error fault =>
    have herror : tokenize (String.ofList ['#', '#', '0']) = .error fault := (hsame fault).1 hrun
    rw [herror] at hok
    cases hok

end TexMath
