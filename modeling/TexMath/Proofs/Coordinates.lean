/-
The tracker relates the characters of a text with its coordinates, one to
one and in order.

# Coordinates of a text

The coordinates of a text come from a global cut: a line is a piece of
the text between newlines, a column counts the characters of its piece,
and the newline behind a piece stands in the column after the last one
(`Text.Holds`). The tracker knows nothing of pieces and counts one
character at a time. The two agree because a newline starts a piece and
any other character lengthens the first piece of what follows it, which
is the rule for the next location, read backwards; so the characters of
a located text are those at its coordinates (`mem_locate_iff`), wherever
the text starts.

# Order

A located text increases strictly (`increasing_locate`), so that its
indices and its spans have the same order (`lt_iff_span_lt`), and no span
belongs to two of them.

# Pulls

What a tracker returns in a number of pulls is the located text of the
events that these have used up (`returned_pulls`), whatever ends and
failures are among them.
-/
import Mathlib.Data.List.Basic
import Mathlib.Logic.ExistsUnique
import TexMath.Proofs.Conservation
import TexMath.Text.Lines

namespace TexMath

-- ============================================================= located texts

/-- The characters of a located text stand behind the text in front of
them. -/
theorem getElem?_locate (base : Span) (text : List Char) (k : Nat) :
    (locate base text)[k]? = (text[k]?).map fun c => ⟨c, base.afterAll (text.take k)⟩ := by
  induction text generalizing base k with
  | nil => rfl
  | cons d text ih =>
    cases k with
    | zero => rfl
    | succ k => exact ih (base.after d) k

/-- A character of a located text stands behind the text in front of it. -/
theorem exists_of_mem_locate {base : Span} {text : List Char} {c : Located Char}
    (h : c ∈ locate base text) :
    ∃ pre post, text = pre ++ c.val :: post ∧ c.span = base.afterAll pre := by
  induction text generalizing base with
  | nil => cases h
  | cons d text ih =>
    rcases List.mem_cons.1 h with rfl | h
    · exact ⟨[], text, rfl, rfl⟩
    · obtain ⟨pre, post, rfl, hspan⟩ := ih h
      exact ⟨d :: pre, post, rfl, hspan⟩

@[simp]
theorem map_val_locate (base : Span) (text : List Char) :
    (locate base text).map (·.val) = text := by
  induction text generalizing base with
  | nil => rfl
  | cons c text ih => exact congrArg (c :: ·) (ih (base.after c))

theorem increasing_locate (base : Span) (text : List Char) :
    ((locate base text).map (·.span)).Pairwise (· < ·) := by
  induction text generalizing base with
  | nil => exact .nil
  | cons c text ih =>
    refine List.pairwise_cons.2 ⟨fun span hspan => ?_, ih (base.after c)⟩
    obtain ⟨d, hd, rfl⟩ := List.mem_map.1 hspan
    obtain ⟨pre, -, -, hpre⟩ := exists_of_mem_locate hd
    rw [hpre]
    exact base.lt_afterAll (List.cons_ne_nil c pre)

namespace Span

theorem positive_after {s : Span} (h : 1 ≤ s.line ∧ 1 ≤ s.column) (c : Char) :
    1 ≤ (s.after c).line ∧ 1 ≤ (s.after c).column := by
  unfold after
  split
  · exact ⟨by show 1 ≤ s.line + 1; omega, Int.le_refl 1⟩
  · exact ⟨h.1, by show 1 ≤ s.column + 1; omega⟩

theorem positive_afterAll {s : Span} (h : 1 ≤ s.line ∧ 1 ≤ s.column) (text : List Char) :
    1 ≤ (s.afterAll text).line ∧ 1 ≤ (s.afterAll text).column := by
  induction text generalizing s with
  | nil => exact h
  | cons c text ih => exact ih (positive_after h c)

/-- Lines count newlines. -/
theorem line_afterAll (s : Span) (text : List Char) :
    (s.afterAll text).line = s.line + text.count '\n' := by
  induction text generalizing s with
  | nil => exact (Int.add_zero s.line).symm
  | cons c text ih =>
    rw [afterAll_cons, ih, List.count_cons]
    unfold after
    by_cases hc : c = '\n'
    · simp only [hc, if_true, beq_self_eq_true]
      omega
    · simp [hc]

end Span

-- =============================================================== coordinates

namespace Text

/-- The text between newlines, and in front of the first and behind the
last one. -/
def pieces (text : List Char) : List (List Char) :=
  (cut '\n' text).1 :: (cut '\n' text).2

theorem pieces_newline (text : List Char) : pieces ('\n' :: text) = [] :: pieces text := by
  simp [pieces]

/-- Any other character is the first one of the first piece behind it. -/
theorem pieces_cons {c : Char} (hc : c ≠ '\n') (text : List Char) :
    pieces (c :: text) = (c :: (cut '\n' text).1) :: (cut '\n' text).2 := by
  simp [pieces, cut_cons hc]

/-- The character `c` has line `i` and column `k` in the pieces of a text,
both counted from zero: it stands there in the piece, or it is the newline
behind the piece, which the last piece does not have. -/
def Holds (pieces : List (List Char)) (i k : Nat) (c : Char) : Prop :=
  ∃ piece, pieces[i]? = some piece
    ∧ ((piece)[k]? = some c ∨ c = '\n' ∧ k = piece.length ∧ i + 1 < pieces.length)

variable {piece : List Char} {later : List (List Char)} {i k : Nat} {c d : Char}

theorem holds_zero_iff :
    Holds (piece :: later) 0 k c
      ↔ (piece)[k]? = some c ∨ c = '\n' ∧ k = piece.length ∧ later ≠ [] := by
  simp [Holds, List.length_pos_iff]

theorem holds_succ_iff : Holds (piece :: later) (i + 1) k c ↔ Holds later i k c := by
  simp [Holds]

/-- In front of a newline there is a piece without characters. -/
theorem holds_newline_iff : Holds ([] :: piece :: later) 0 k c ↔ c = '\n' ∧ k = 0 := by
  simp [holds_zero_iff]

/-- A piece that gets longer at its front moves its characters on. -/
theorem holds_lengthened_iff :
    Holds ((d :: piece) :: later) 0 k c
      ↔ k = 0 ∧ c = d ∨ ∃ j, k = j + 1 ∧ Holds (piece :: later) 0 j c := by
  rw [holds_zero_iff]
  cases k with
  | zero => simp [eq_comm]
  | succ k => simp [holds_zero_iff]

theorem exists_holds {pieces : List (List Char)} (hpiece : pieces[i]? = some piece)
    (hk : k < piece.length ∨ k = piece.length ∧ i + 1 < pieces.length) :
    ∃ c, Holds pieces i k c := by
  rcases hk with hk | ⟨rfl, hlater⟩
  · exact ⟨(piece)[k], piece, hpiece, .inl (List.getElem?_eq_getElem hk)⟩
  · exact ⟨'\n', piece, hpiece, .inr ⟨rfl, rfl, hlater⟩⟩

end Text

namespace Span

variable {base : Span} {i k : Nat} {c : Char}

/-- The location at line `i` and column `k`, both counted from zero, of a
text that starts at `base`. -/
def offset (base : Span) (i k : Nat) : Span :=
  ⟨base.line + i, (if i = 0 then base.column else 1) + k⟩

theorem offset_zero_zero : base.offset 0 0 = base := by
  simp [offset]

theorem offset_origin (i k : Nat) : origin.offset i k = ⟨i + 1, k + 1⟩ := by
  apply Span.ext
  · exact Int.add_comm 1 i
  · show (if i = 0 then (1 : Int) else 1) + k = k + 1
    rw [ite_self]
    exact Int.add_comm 1 k

/-- Behind a newline a line starts. -/
theorem offset_newline : base.offset (i + 1) k = (base.after '\n').offset i k := by
  apply Span.ext
  · show base.line + (i + 1 : Nat) = base.line + 1 + i
    omega
  · show (if i + 1 = 0 then base.column else 1) + (k : Int) = (if i = 0 then 1 else 1) + k
    rw [ite_self, if_neg (Nat.succ_ne_zero i)]

/-- Behind any other character the line goes on. -/
theorem offset_column (hc : c ≠ '\n') : base.offset 0 (k + 1) = (base.after c).offset 0 k := by
  unfold after
  rw [if_neg hc]
  apply Span.ext
  · rfl
  · show base.column + (k + 1 : Nat) = base.column + 1 + k
    omega

/-- No character moves the start of a later line but a newline. -/
theorem offset_line (hc : c ≠ '\n') : base.offset (i + 1) k = (base.after c).offset (i + 1) k := by
  unfold after
  rw [if_neg hc]
  rfl

end Span

open Text

/-- The characters of a text that starts at `base` stand at its
coordinates, and one stands at each of them. -/
theorem mem_locate_iff {base span : Span} {text : List Char} {c : Char} :
    ⟨c, span⟩ ∈ locate base text
      ↔ ∃ i k, Holds (pieces text) i k c ∧ span = base.offset i k := by
  induction text generalizing base with
  | nil =>
    constructor
    · exact nofun
    · rintro ⟨i, k, ⟨piece, hpiece, hc⟩, -⟩
      cases i <;> simp_all [pieces]
  | cons d text ih =>
    rw [locate, List.mem_cons, ih, Located.mk.injEq]
    by_cases hd : d = '\n'
    · subst hd
      rw [pieces_newline]
      constructor
      · rintro (⟨rfl, rfl⟩ | ⟨i, k, hc, rfl⟩)
        · exact ⟨0, 0, holds_newline_iff.2 ⟨rfl, rfl⟩, Span.offset_zero_zero.symm⟩
        · exact ⟨i + 1, k, holds_succ_iff.2 hc, Span.offset_newline.symm⟩
      · rintro ⟨_ | i, k, hc, rfl⟩
        · obtain ⟨rfl, rfl⟩ := holds_newline_iff.1 hc
          exact .inl ⟨rfl, Span.offset_zero_zero⟩
        · exact .inr ⟨i, k, holds_succ_iff.1 hc, Span.offset_newline⟩
    · rw [pieces_cons hd]
      constructor
      · rintro (⟨rfl, rfl⟩ | ⟨_ | i, k, hc, rfl⟩)
        · exact ⟨0, 0, holds_lengthened_iff.2 (.inl ⟨rfl, rfl⟩), Span.offset_zero_zero.symm⟩
        · exact ⟨0, k + 1, holds_lengthened_iff.2 (.inr ⟨k, rfl, hc⟩), (Span.offset_column hd).symm⟩
        · exact ⟨i + 1, k, holds_succ_iff.2 (holds_succ_iff.1 hc), (Span.offset_line hd).symm⟩
      · rintro ⟨_ | i, k, hc, rfl⟩
        · rcases holds_lengthened_iff.1 hc with ⟨rfl, rfl⟩ | ⟨j, rfl, hfirst⟩
          · exact .inl ⟨rfl, Span.offset_zero_zero⟩
          · exact .inr ⟨0, j, hfirst, Span.offset_column hd⟩
        · exact .inr ⟨i + 1, k, holds_succ_iff.2 (holds_succ_iff.1 hc), Span.offset_line hd⟩

-- ===================================================================== order

variable {base : Span} {text : List Char} {a b : Located Char} {j k : Nat}

theorem span_lt_of_lt (ha : (locate base text)[j]? = some a)
    (hb : (locate base text)[k]? = some b) (hlt : j < k) : a.span < b.span := by
  obtain ⟨hj, rfl⟩ := List.getElem?_eq_some_iff.1 ha
  obtain ⟨hk, rfl⟩ := List.getElem?_eq_some_iff.1 hb
  have hincreasing := List.pairwise_map.1 (increasing_locate base text)
  exact List.pairwise_iff_getElem.1 hincreasing j k hj hk hlt

/-- No span belongs to two indices. -/
theorem eq_of_span_eq (ha : (locate base text)[j]? = some a)
    (hb : (locate base text)[k]? = some b) (hspan : a.span = b.span) : j = k := by
  rcases Nat.lt_trichotomy j k with hlt | heq | hgt
  · have hless := span_lt_of_lt ha hb hlt
    rw [hspan] at hless
    exact absurd hless (Span.lt_irrefl _)
  · exact heq
  · have hless := span_lt_of_lt hb ha hgt
    rw [hspan] at hless
    exact absurd hless (Span.lt_irrefl _)

/-- The spans of a located text have the order of its indices. -/
theorem lt_iff_span_lt (ha : (locate base text)[j]? = some a)
    (hb : (locate base text)[k]? = some b) : j < k ↔ a.span < b.span := by
  refine ⟨span_lt_of_lt ha hb, fun hspan => ?_⟩
  rcases Nat.lt_trichotomy j k with hlt | rfl | hgt
  · exact hlt
  · rw [ha, Option.some.injEq] at hb
    rw [hb] at hspan
    exact absurd hspan (Span.lt_irrefl _)
  · exact absurd (Span.lt_trans hspan (span_lt_of_lt hb ha hgt)) (Span.lt_irrefl _)

/-- A span in a located text is the span of exactly one index. -/
theorem existsUnique_of_mem_locate {c : Located Char} (h : c ∈ locate base text) :
    ∃! k : Nat, ((locate base text)[k]?).map Located.span = some c.span := by
  obtain ⟨k, hk⟩ := List.mem_iff_getElem?.1 h
  refine ⟨k, by simp only [hk, Option.map_some], fun j hj => ?_⟩
  obtain ⟨d, hd, hspan⟩ := Option.map_eq_some_iff.1 hj
  exact eq_of_span_eq hd hk hspan

-- ===================================================================== pulls

namespace Tracker

/-- What a tracker says when it is asked `n` times, ends and failures
included, and the tracker that is left. -/
def pulls (t : Tracker) : Nat → List (Except Fault (Option (Located Char))) × Tracker
  | 0 => ([], t)
  | n + 1 => (t.next.1 :: (t.next.2.pulls n).1, (t.next.2.pulls n).2)

/-- The character that an answer returns. -/
def returned? : Except Fault (Option (Located Char)) → Option (Located Char)
  | .ok c => c
  | .error _ => none

/-- The characters that have been returned, in order. -/
def returned (answers : List (Except Fault (Option (Located Char)))) : List (Located Char) :=
  answers.filterMap returned?

/-- An end or a failure leaves the position as it is. -/
theorem position_next_of_returned?_eq_none {t : Tracker} (h : returned? t.next.1 = none) :
    t.next.2.position = t.position := by
  obtain ⟨⟨events, hint, pulled⟩, position⟩ := t
  cases events with
  | nil => rfl
  | cons e rest =>
    cases e with
    | char c => cases h
    | stop => rfl
    | fail text => rfl

/-- What is returned is the located text of the events used up. -/
theorem returned_pulls (t : Tracker) (n : Nat) :
    returned (t.pulls n).1 = locate t.position (Event.handed (t.source.events.take n)) := by
  induction n generalizing t with
  | zero => rfl
  | succ n ih =>
    obtain ⟨⟨events, hint, pulled⟩, position⟩ := t
    cases events with
    | nil =>
      have hrest := ih ⟨⟨[], hint, pulled⟩, position⟩
      rw [List.take_nil] at hrest ⊢
      exact hrest
    | cons e rest =>
      cases e with
      | char c => exact congrArg (_ :: ·) (ih ⟨⟨rest, hint, pulled + 1⟩, position.after c⟩)
      | stop => exact ih ⟨⟨rest, hint, pulled⟩, position⟩
      | fail text => exact ih ⟨⟨rest, hint, pulled⟩, position⟩

/-- However often a tracker over a source has been asked, asking it again
moves its position only when that returns a character. The characters
that it has returned make up the text of the events used up. The line of
each of them is one more than the newlines in front of it, line and column
together lead to it among the pieces of the text, and the order of the
spans is that of the characters. Conversely, every line and column of the
pieces, the place of the newline behind each piece but the last included,
is the span of exactly one of them. -/
theorem pulls_coordinates (source : Source) (n : Nat) :
    let answers := ((ofSource source).pulls n).1
    let t := ((ofSource source).pulls n).2
    let located := returned answers
    let text := located.map (·.val)
    (returned? t.next.1 = none → t.next.2.position = t.position)
    ∧ text = Event.handed (source.events.take n)
    ∧ (∀ (k : Nat) c, (located)[k]? = some c →
        c.span.line = 1 + ((text.take k).count '\n' : Nat)
        ∧ ∃ (i j : Nat) (piece : List Char), c.span = ⟨i + 1, j + 1⟩ ∧ (pieces text)[i]? = some piece
          ∧ ((piece)[j]? = some c.val ∨ c.val = '\n' ∧ j = piece.length))
    ∧ (∀ (j k : Nat) a b, (located)[j]? = some a → (located)[k]? = some b →
        (j < k ↔ a.span < b.span))
    ∧ ∀ (i j : Nat) (piece : List Char), (pieces text)[i]? = some piece →
        j < piece.length ∨ j = piece.length ∧ i + 1 < (pieces text).length →
        ∃! k : Nat, ((located)[k]?).map Located.span = some ⟨i + 1, j + 1⟩ := by
  intro answers t located text
  have hpulls : located = locate .origin (Event.handed (source.events.take n)) :=
    (ofSource source).returned_pulls n
  have htext : text = Event.handed (source.events.take n) := by
    show located.map (·.val) = _
    rw [hpulls, map_val_locate]
  rw [← htext] at hpulls
  clear_value located text
  subst hpulls
  refine ⟨position_next_of_returned?_eq_none, htext, fun k c hc => ⟨?_, ?_⟩,
    fun j k a b ha hb => lt_iff_span_lt ha hb, fun i j piece hpiece hj => ?_⟩
  · rw [getElem?_locate, Option.map_eq_some_iff] at hc
    obtain ⟨d, -, rfl⟩ := hc
    exact Span.line_afterAll .origin _
  · obtain ⟨i, j, ⟨piece, hpiece, hchar⟩, hspan⟩ := mem_locate_iff.1 (List.mem_of_getElem? hc)
    rw [Span.offset_origin] at hspan
    exact ⟨i, j, piece, hspan, hpiece, hchar.imp_right fun h => ⟨h.1, h.2.1⟩⟩
  · obtain ⟨c, hc⟩ : ∃ c, Holds (pieces text) i j c := exists_holds hpiece hj
    have hmem : ⟨c, ⟨i + 1, j + 1⟩⟩ ∈ locate .origin text :=
      mem_locate_iff.2 ⟨i, j, hc, (Span.offset_origin i j).symm⟩
    exact existsUnique_of_mem_locate hmem

end Tracker

end TexMath
