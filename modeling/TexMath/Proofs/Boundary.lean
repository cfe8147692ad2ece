/-
Where lexemes end.

A lexeme is complete when nothing that follows could make it longer: a
brace, a single character, a backslash with a character that is no
letter. Every other lexeme wants more, and what it wants is a class of
characters (`Lexeme.wants`): letters behind a name, digits behind a
number, blanks behind blanks, the rest of the line behind a percent
sign, and anything at all behind a backslash or a `#` that is the last
character of the text.

# The two halves of maximal munch

The first lexeme of a text stops at what is left of the text
(`first_stopsAt`): it has taken all that it wants. And only that
matters: where a lexeme stops, any text may be put behind it without
changing it (`first_append_of_stopsAt`). The first half is what the
tokens of a text have in common, the second half is what spelling
tokens and cutting texts in two rely on.
-/
import Mathlib.Data.List.TakeWhile
import TexMath.Lexeme
import TexMath.Token.Lexable

namespace TexMath.Lexeme

open Text

-- ========================================================= first characters

theorem isBlank_of_mem_specials {c : Char} (h : c ∈ Token.specials) : isBlank c = false := by
  have hall : (Token.specials.all fun d => !isBlank d) = true := by decide
  have hrefused := List.all_eq_true.1 hall c h
  rwa [Bool.not_eq_true'] at hrefused

/-- A statement about the first character of a lexeme, case by case. -/
@[elab_as_elim]
theorem startCases {motive : Char → Prop} (left : motive '{') (right : motive '}')
    (ampersand : motive '&') (nul : motive '\x00') (backslash : motive '\\') (hash : motive '#')
    (percent : motive '%') (blank : ∀ c, isBlank c = true → motive c)
    (plain : ∀ c, isBlank c = false → c ∉ Token.specials → motive c) (c : Char) : motive c := by
  by_cases hspecial : c ∈ Token.specials
  · simp only [Token.specials, List.mem_cons, List.not_mem_nil, or_false] at hspecial
    rcases hspecial with rfl | rfl | rfl | rfl | rfl | rfl | rfl
    · exact left
    · exact right
    · exact ampersand
    · exact nul
    · exact backslash
    · exact percent
    · exact hash
  · cases h : isBlank c with
    | true => exact blank c h
    | false => exact plain c h hspecial

theorem first_percent (rest : List Char) :
    first '%' rest = withRun ['%'] (fun d => d ≠ '\n' && d ≠ '\x00')
      (fun text => .ok (.comment (String.ofList text))) rest := rfl

theorem ne_of_not_special {c : Char} (h : c ∉ Token.specials) :
    c ≠ '{' ∧ c ≠ '}' ∧ c ≠ '&' ∧ c ≠ '\x00' ∧ c ≠ '\\' ∧ c ≠ '%' ∧ c ≠ '#' := by
  simpa only [Token.specials, List.mem_cons, List.not_mem_nil, or_false, not_or] using h

theorem not_special_of_isBlank {c : Char} (h : isBlank c = true) : c ∉ Token.specials := by
  intro hspecial
  rw [isBlank_of_mem_specials hspecial] at h
  exact Bool.false_ne_true h

theorem first_of_blank {c : Char} (rest : List Char) (h : isBlank c = true) :
    first c rest = withRun [c] isBlank
      (fun text => .ok (.whitespace (String.ofList (c :: text)))) rest := by
  obtain ⟨h1, h2, h3, h4, h5, h7, h6⟩ := ne_of_not_special (not_special_of_isBlank h)
  unfold first
  rw [if_neg h1, if_neg h2, if_neg h3, if_neg h4, if_neg h5, if_neg h6, if_neg h7, if_pos h]

theorem first_of_plain {c : Char} (rest : List Char) (h : isBlank c = false)
    (hplain : c ∉ Token.specials) :
    first c rest = (⟨[c], .ok (.char (String.ofList [c]))⟩, rest) := by
  obtain ⟨h1, h2, h3, h4, h5, h7, h6⟩ := ne_of_not_special hplain
  unfold first
  rw [if_neg h1, if_neg h2, if_neg h3, if_neg h4, if_neg h5, if_neg h6, if_neg h7, h]
  rfl

theorem first_of_letter {c : Char} (rest : List Char) (h : isLetter c = true) :
    first '\\' (c :: rest) = withRun ['\\'] isLetter
      (fun name => .ok (.control (String.ofList name))) (c :: rest) := by
  show (if isLetter c = true then _ else _) = _
  rw [if_pos h]

theorem first_of_symbol {c : Char} (rest : List Char) (h : isLetter c = false) :
    first '\\' (c :: rest) = (⟨['\\', c], .ok (.control (String.ofList [c]))⟩, rest) := by
  show (if isLetter c = true then _ else _) = _
  rw [h]
  rfl

theorem first_of_digit {c : Char} (rest : List Char) (h : isDigit c = true) :
    first '#' (c :: rest) = withRun ['#'] isDigit number (c :: rest) := by
  show (if isDigit c = true then _ else _) = _
  rw [if_pos h]

theorem first_of_illegal {c : Char} (rest : List Char) (h : isDigit c = false) :
    first '#' (c :: rest) = (⟨['#', c], .ok (.error ⟨"#"⟩)⟩, rest) := by
  show (if isDigit c = true then _ else _) = _
  rw [h]
  rfl

-- ====================================================== what a lexeme wants

/-- The characters that would make a lexeme longer; nothing when no
character would. -/
def wants (x : Lexeme) : Option (Char → Bool) :=
  match x.reading with
  | .ok (.control name) =>
    if name.toList = [] then some fun _ => true
    else if name.toList.all isLetter then some isLetter
    else none
  | .ok (.whitespace _) => some isBlank
  | .ok (.comment _) => some fun c => c ≠ '\n' && c ≠ '\x00'
  | .ok (.error _) => if x.text = ['#'] then some fun _ => true else none
  | .ok (.arg _) | .error _ => some isDigit
  | _ => none

/-- The lexeme is not made longer by the text behind it. -/
def StopsAt (x : Lexeme) (text : List Char) : Prop :=
  ∀ p ∈ x.wants, ∀ d ∈ text.head?, p d = false

theorem wants_of_reading {x : Lexeme} {t : Token} (hread : x.reading = .ok t) :
    x.wants = wants ⟨x.text, .ok t⟩ := by
  unfold wants
  rw [hread]

theorem wants_name {c : Char} (rest : List Char) (h : isLetter c = true) :
    (first '\\' (c :: rest)).1.wants = some isLetter := by
  rw [first_of_letter rest h]
  unfold withRun
  have hall : ((c :: rest).takeWhile isLetter).all isLetter = true := List.all_takeWhile
  rw [List.takeWhile_cons_of_pos h] at hall ⊢
  simp only [wants, String.toList_ofList, hall, if_true, reduceCtorEq, if_false]

theorem wants_symbol {c : Char} (text : List Char) (h : isLetter c = false) :
    wants ⟨text, .ok (.control (String.ofList [c]))⟩ = none := by
  simp only [wants, String.toList_ofList, List.all_cons, h, Bool.false_and, reduceCtorEq,
    if_false, Bool.false_eq_true]

theorem wants_number (text digits : List Char) : wants ⟨text, number digits⟩ = some isDigit := by
  unfold number
  split <;> rfl

-- ============================================================ maximal munch

theorem stopsAt_of_wants_none {x : Lexeme} (text : List Char) (h : x.wants = none) :
    x.StopsAt text := by
  intro p hp
  rw [h] at hp
  cases hp

theorem stopsAt_iff {x : Lexeme} {p : Char → Bool} {text : List Char} (h : x.wants = some p) :
    x.StopsAt text ↔ ∀ d ∈ text.head?, p d = false := by
  constructor
  · intro hstops
    exact hstops p h
  · intro hstops q hq
    rw [h] at hq
    cases hq
    exact hstops

/-- A lexeme that wants everything stops at the end of the text only. -/
theorem stopsAt_end_iff {x : Lexeme} {text : List Char} (h : x.wants = some fun _ => true) :
    x.StopsAt text ↔ text = [] := by
  rw [stopsAt_iff h]
  constructor
  · intro hstops
    cases text with
    | nil => rfl
    | cons d text => exact absurd (hstops d rfl) (by decide)
  · rintro rfl d hd
    cases hd

theorem stopsAt_nil (x : Lexeme) : x.StopsAt [] := by
  intro p _ d hd
  cases hd

/-- Only the first character matters to where a lexeme stops. -/
theorem stopsAt_of_append {x : Lexeme} {text more : List Char} (h : x.StopsAt (text ++ more)) :
    x.StopsAt text := by
  cases text with
  | nil => exact stopsAt_nil x
  | cons d text => exact h

theorem stopsAt_append {x : Lexeme} {text : List Char} (more : List Char) (h : x.StopsAt text)
    (hne : text ≠ []) : x.StopsAt (text ++ more) := by
  cases text with
  | nil => exact absurd rfl hne
  | cons d text => exact h

/-- Where a run is cut: in front of the first character that is not
accepted. -/
theorem cut_run {p : Char → Bool} {run more : List Char} (h : ∀ d ∈ run, p d = true)
    (hstops : ∀ d ∈ more.head?, p d = false) :
    (run ++ more).takeWhile p = run ∧ (run ++ more).dropWhile p = more := by
  have hnone_taken : more.takeWhile p = [] ∧ more.dropWhile p = more := by
    cases more with
    | nil => exact ⟨rfl, rfl⟩
    | cons d more =>
      have hrefused : ¬ p d = true := by
        rw [hstops d rfl]
        exact Bool.false_ne_true
      exact ⟨List.takeWhile_cons_of_neg hrefused, List.dropWhile_cons_of_neg hrefused⟩
  rw [List.takeWhile_append_of_pos h, List.dropWhile_append_of_pos h, hnone_taken.1, hnone_taken.2,
    List.append_nil]
  exact ⟨rfl, rfl⟩

theorem head_dropWhile {p : Char → Bool} {text : List Char} :
    ∀ d ∈ (text.dropWhile p).head?, p d = false := by
  intro d hd
  have h := List.head?_dropWhile_not p text
  rw [Option.mem_def.1 hd] at h
  exact h

/-- The lexeme `cut.1` takes a part of the text `rest` behind its first
character `c`, stops at `cut.2`, and is the first lexeme of every text
that starts with that part and goes on where the lexeme stops. -/
def Cuts (c : Char) (rest : List Char) (cut : Lexeme × List Char) : Prop :=
  ∃ run, cut.1.text = c :: run ∧ rest = run ++ cut.2 ∧ cut.1.StopsAt cut.2 ∧
    ∀ more, cut.1.StopsAt more → first c (run ++ more) = (cut.1, more)

theorem cuts_single {c : Char} {read : Except Fault Token} (rest : List Char)
    (hcomplete : wants ⟨[c], read⟩ = none) (halways : ∀ more, first c more = (⟨[c], read⟩, more)) :
    Cuts c rest (first c rest) := by
  rw [halways rest]
  exact ⟨[], rfl, rfl, stopsAt_of_wants_none rest hcomplete, fun more _ => halways more⟩

theorem cuts_pair {c d : Char} {read : Except Fault Token} (rest : List Char)
    (hcomplete : wants ⟨[c, d], read⟩ = none)
    (halways : ∀ more, first c (d :: more) = (⟨[c, d], read⟩, more)) :
    Cuts c (d :: rest) (first c (d :: rest)) := by
  rw [halways rest]
  exact ⟨[d], rfl, rfl, stopsAt_of_wants_none rest hcomplete, fun more _ => halways more⟩

/-- A lexeme that is made by the end of the text. -/
theorem cuts_end {c : Char} {x : Lexeme} (htext : x.text = [c])
    (hall : x.wants = some fun _ => true) (hlast : first c [] = (x, [])) :
    Cuts c [] (first c []) := by
  rw [hlast]
  refine ⟨[], htext, rfl, (stopsAt_end_iff hall).2 rfl, ?_⟩
  intro more hstops
  rw [(stopsAt_end_iff hall).1 hstops]
  exact hlast

/-- A lexeme with a run behind its first character. -/
theorem cuts_run {c : Char} {p : Char → Bool} {read : List Char → Except Fault Token}
    {rest : List Char} (hrun : wants (withRun [c] p read rest).1 = some p)
    (here : first c rest = withRun [c] p read rest)
    (halways : ∀ more, first c (rest.takeWhile p ++ more) =
      withRun [c] p read (rest.takeWhile p ++ more)) :
    Cuts c rest (first c rest) := by
  rw [here]
  refine ⟨rest.takeWhile p, rfl, List.takeWhile_append_dropWhile.symm,
    (stopsAt_iff hrun).2 head_dropWhile, ?_⟩
  intro more hstops
  obtain ⟨htaken, hdropped⟩ :=
    cut_run (fun d hd => List.mem_takeWhile_imp hd) ((stopsAt_iff hrun).1 hstops)
  rw [halways more]
  unfold withRun
  rw [htaken, hdropped]

/-- The first lexeme of a text takes all that it wants, and no more than
that decides where it ends. -/
theorem first_cuts (c : Char) (rest : List Char) : Cuts c rest (first c rest) := by
  induction c using startCases with
  | left => exact cuts_single rest rfl fun _ => rfl
  | right => exact cuts_single rest rfl fun _ => rfl
  | ampersand => exact cuts_single rest rfl fun _ => rfl
  | nul => exact cuts_single rest rfl fun _ => rfl
  | backslash =>
    cases rest with
    | nil => exact cuts_end rfl rfl rfl
    | cons d rest =>
      cases hletter : isLetter d with
      | true =>
        have here := first_of_letter rest hletter
        have hrun := wants_name rest hletter
        rw [here] at hrun
        refine cuts_run hrun here ?_
        intro more
        rw [List.takeWhile_cons_of_pos hletter]
        exact first_of_letter _ hletter
      | false =>
        exact cuts_pair rest (wants_symbol _ hletter) fun more => first_of_symbol more hletter
  | hash =>
    cases rest with
    | nil => exact cuts_end rfl rfl rfl
    | cons d rest =>
      cases hdigit : isDigit d with
      | true =>
        refine cuts_run (wants_number _ _) (first_of_digit rest hdigit) ?_
        intro more
        rw [List.takeWhile_cons_of_pos hdigit]
        exact first_of_digit _ hdigit
      | false => exact cuts_pair rest rfl fun more => first_of_illegal more hdigit
  | percent => exact cuts_run rfl (first_percent rest) fun more => first_percent _
  | blank c hblank =>
    exact cuts_run rfl (first_of_blank rest hblank) fun more => first_of_blank _ hblank
  | plain c hblank hplain =>
    exact cuts_single rest rfl fun more => first_of_plain more hblank hplain

/-- The first lexeme stops at what is left of the text. -/
theorem first_stopsAt (c : Char) (rest : List Char) :
    (first c rest).1.StopsAt (first c rest).2 := by
  obtain ⟨run, -, -, hstops, -⟩ := first_cuts c rest
  exact hstops

/-- Where the first lexeme stops, any text may follow. -/
theorem first_append_of_stopsAt {c : Char} {rest more : List Char}
    (h : (first c rest).1.StopsAt ((first c rest).2 ++ more)) :
    first c (rest ++ more) = ((first c rest).1, (first c rest).2 ++ more) := by
  obtain ⟨run, -, hsplit, -, halways⟩ := first_cuts c rest
  have := halways _ h
  rwa [← List.append_assoc, ← hsplit] at this

end TexMath.Lexeme
