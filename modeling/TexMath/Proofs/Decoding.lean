/-
Decoding: the strict reader of UTF-8 takes back what the encoder makes,
and nothing else.

# One character

The bytes behind the first one carry a number in groups of six bits, the
highest group first (`following`). A number fits a character that is
unfinished when its higher bits are those read already and its next
group is within the bounds (`Unfinished.Fits`). The reader takes exactly
the following bytes of a number that fits (`decodeFrom_following`,
`decodeFrom_some_cases`), and what a first byte announces is fitted by
exactly the numbers of the characters whose encoding starts with that
byte (`first_encodeChar`, `exists_encodeChar_of_part`).

# Texts

So the reader goes on behind an encoded text (`decodeFrom_encode`), and
where it stops without an error there is one (`decode_eq_ok_iff`). It
never goes back: an error stands behind all that has been read
(`le_position_of_error`). Its position is therefore the length of the
longest well-formed sequence that the bytes start with
(`exists_refusal`).
-/
import TexMath.Text.Utf8

namespace TexMath.Text.Utf8

-- ========================================================= following bytes

/-- What is left of a number without its last `n` groups of six bits. -/
def above : Nat → Nat → Nat
  | 0, v => v
  | n + 1, v => above n v / 64

/-- The bytes that carry the last `n` groups of six bits of a number. -/
def following : Nat → Nat → List UInt8
  | 0, _ => []
  | n + 1, v => UInt8.ofNat (above n v % 64 + 0x80) :: following n v

theorem length_following (n v : Nat) : (following n v).length = n := by
  induction n with
  | zero => rfl
  | succ n ih => exact congrArg Nat.succ ih

/-- The bits read are the higher bits of the number, and its next group
is within the bounds. -/
structure Unfinished.Fits (u : Unfinished) (v : Nat) : Prop where
  bits : above (u.owed + 1) v = u.value
  low_le : u.low ≤ above u.owed v % 64 + 0x80
  le_high : above u.owed v % 64 + 0x80 ≤ u.high

/-- The refusal is about a character at the position, which the bytes start
with. -/
structure Refusal.Starts (r : Refusal) (position : Nat) (bytes : List UInt8) : Prop where
  position : r.position = position
  byte : bytes.head? = some r.byte
  length_pos : 1 ≤ r.length
  length_le : r.length ≤ bytes.length

variable {found : List Char} {position : Nat} {rest : List UInt8} {u : Unfinished} {b : UInt8}
variable {v n : Nat}

theorem toNat_byte (h : n < 256) : (UInt8.ofNat n).toNat = n :=
  UInt8.toNat_ofNat_of_lt' h

theorem toNat_group (n : Nat) : (UInt8.ofNat (n % 64 + 0x80)).toNat = n % 64 + 0x80 :=
  toNat_byte (by omega)

namespace Unfinished

theorem Fits.bits_group (h : u.Fits v) :
    u.bits (UInt8.ofNat (above u.owed v % 64 + 0x80)) = above u.owed v := by
  have hbits : above u.owed v / 64 = u.value := h.bits
  unfold Unfinished.bits
  rw [toNat_group]
  omega

theorem Fits.in_bounds (h : u.Fits v) :
    u.low ≤ (UInt8.ofNat (above u.owed v % 64 + 0x80)).toNat
      ∧ (UInt8.ofNat (above u.owed v % 64 + 0x80)).toNat ≤ u.high := by
  rw [toNat_group]
  exact ⟨h.low_le, h.le_high⟩

/-- The number fits what is unfinished behind its next byte. -/
theorem Fits.push (h : u.Fits v) (howed : u.owed = n + 1) :
    (u.push (UInt8.ofNat (above u.owed v % 64 + 0x80)) n).Fits v := by
  refine ⟨?_, ?_, ?_⟩
  · show above (n + 1) v = u.bits _
    rw [h.bits_group, howed]
  · show 0x80 ≤ above n v % 64 + 0x80
    omega
  · show above n v % 64 + 0x80 ≤ 0xbf
    omega

/-- A number fits when a byte within the bounds completes its higher bits;
that byte is then the next one of the number. -/
theorem fits_of_byte (hlow : 0x80 ≤ u.low) (hhigh : u.high ≤ 0xbf)
    (hb : u.low ≤ b.toNat ∧ b.toNat ≤ u.high) (habove : above u.owed v = u.bits b) :
    u.Fits v ∧ UInt8.ofNat (above u.owed v % 64 + 0x80) = b := by
  have hgroup : u.bits b / 64 = u.value ∧ u.bits b % 64 + 0x80 = b.toNat := by
    unfold bits
    omega
  refine ⟨⟨?_, ?_, ?_⟩, ?_⟩
  · rw [above, habove]
    exact hgroup.1
  · rw [habove, hgroup.2]
    exact hb.1
  · rw [habove, hgroup.2]
    exact hb.2
  · rw [habove, hgroup.2, UInt8.ofNat_toNat]

end Unfinished

theorem decodeFrom_last (howed : u.owed = 0) (hb : u.low ≤ b.toNat ∧ b.toNat ≤ u.high) :
    decodeFrom found position (some u) (b :: rest)
      = decodeFrom (Char.ofNat (u.bits b) :: found) (position + u.length + 1) none rest := by
  rw [decodeFrom, if_pos hb, howed]

theorem decodeFrom_push (howed : u.owed = n + 1) (hb : u.low ≤ b.toNat ∧ b.toNat ≤ u.high) :
    decodeFrom found position (some u) (b :: rest)
      = decodeFrom found position (some (u.push b n)) rest := by
  rw [decodeFrom, if_pos hb, howed]

/-- The following bytes of a number that fits complete its character. -/
theorem decodeFrom_following (h : u.Fits v) :
    decodeFrom found position (some u) (following (u.owed + 1) v ++ rest)
      = decodeFrom (Char.ofNat v :: found) (position + u.length + (u.owed + 1)) none rest := by
  have hbounds := h.in_bounds
  have hbits := h.bits_group
  induction howed : u.owed generalizing u with
  | zero =>
    rw [howed] at hbounds hbits
    rw [following, List.cons_append, decodeFrom_last howed hbounds, hbits]
    rfl
  | succ n ih =>
    have hlater := h.push howed
    rw [howed] at hbounds hlater
    have hposition : position + (u.length + 1) + (n + 1) = position + u.length + (n + 1 + 1) := by
      omega
    rw [following, List.cons_append, decodeFrom_push howed hbounds]
    exact (ih hlater hlater.in_bounds hlater.bits_group rfl).trans
      (congrArg (decodeFrom (Char.ofNat v :: found) · none rest) hposition)

/-- Nothing else completes a character: other bytes are refused where it
starts. -/
theorem decodeFrom_some_cases (found : List Char) (position : Nat) (hlow : 0x80 ≤ u.low)
    (hhigh : u.high ≤ 0xbf) (bytes : List UInt8) :
    (∃ r, decodeFrom found position (some u) bytes = .error r ∧ r.position = position
        ∧ r.byte = u.byte ∧ u.length ≤ r.length ∧ r.length ≤ u.length + bytes.length)
      ∨ ∃ v rest, u.Fits v ∧ bytes = following (u.owed + 1) v ++ rest := by
  induction bytes generalizing u with
  | nil => exact .inl ⟨_, rfl, rfl, rfl, Nat.le_refl _, Nat.le_refl _⟩
  | cons b rest ih =>
    by_cases hb : u.low ≤ b.toNat ∧ b.toNat ≤ u.high
    · cases howed : u.owed with
      | zero =>
        have habove : above u.owed (u.bits b) = u.bits b := by
          rw [howed]
          rfl
        obtain ⟨hfits, hbyte⟩ := Unfinished.fits_of_byte hlow hhigh hb habove
        refine .inr ⟨u.bits b, rest, hfits, ?_⟩
        rw [howed] at hbyte
        rw [following, hbyte]
        rfl
      | succ n =>
        rw [decodeFrom_push howed hb]
        refine (ih (u := u.push b n) (Nat.le_refl _) (Nat.le_refl _)).imp ?_ ?_
        · rintro ⟨r, hr, hposition, hbyte, hmore, hless⟩
          refine ⟨r, hr, hposition, hbyte, Nat.le_of_succ_le hmore, ?_⟩
          have hpush : (u.push b n).length = u.length + 1 := rfl
          rw [hpush] at hless
          rw [List.length_cons]
          omega
        rintro ⟨v, later, hlater, hrest⟩
        have habove : above u.owed v = u.bits b := by
          rw [howed]
          exact hlater.bits
        obtain ⟨hfits, hbyte⟩ := Unfinished.fits_of_byte hlow hhigh hb habove
        refine ⟨v, later, hfits, ?_⟩
        rw [howed] at hbyte
        rw [following, hbyte, hrest]
        rfl
    · rw [decodeFrom, if_neg hb]
      exact .inl ⟨_, rfl, rfl, rfl, Nat.le_refl _, Nat.le_add_right _ _⟩

-- ================================================================ characters

theorem exists_char (h : v.isValidChar) : ∃ c : Char, c.toNat = v :=
  ⟨Char.ofNatAux v h, rfl⟩

theorem encodeChar_one {c : Char} (h : c.toNat ≤ 0x7f) :
    String.utf8EncodeChar c = [UInt8.ofNat c.toNat] :=
  if_pos h

theorem encodeChar_two {c : Char} (h : 0x7f < c.toNat) (h' : c.toNat ≤ 0x7ff) :
    String.utf8EncodeChar c = UInt8.ofNat (above 1 c.toNat + 0xc0) :: following 1 c.toNat := by
  have hhead : c.toNat / 64 % 32 = above 1 c.toNat := Nat.mod_eq_of_lt (by omega)
  rw [← hhead]
  exact (if_neg (Nat.not_le.2 h)).trans (if_pos h')

theorem encodeChar_three {c : Char} (h : 0x7ff < c.toNat) (h' : c.toNat ≤ 0xffff) :
    String.utf8EncodeChar c = UInt8.ofNat (above 2 c.toNat + 0xe0) :: following 2 c.toNat := by
  have hhead : c.toNat / 4096 % 16 = above 2 c.toNat := by
    show c.toNat / 4096 % 16 = c.toNat / 64 / 64
    omega
  rw [← hhead]
  exact (if_neg (by show ¬ c.toNat ≤ 127; omega)).trans
    ((if_neg (Nat.not_le.2 h)).trans (if_pos h'))

theorem encodeChar_four {c : Char} (h : 0xffff < c.toNat) :
    String.utf8EncodeChar c = UInt8.ofNat (above 3 c.toNat + 0xf0) :: following 3 c.toNat := by
  have hvalid : c.toNat.isValidChar := c.valid
  have hhead : c.toNat / 262144 % 8 = above 3 c.toNat := by
    show c.toNat / 262144 % 8 = c.toNat / 64 / 64 / 64
    omega
  have hnext : c.toNat / 4096 = above 2 c.toNat := by
    show c.toNat / 4096 = c.toNat / 64 / 64
    omega
  rw [following, ← hhead, ← hnext]
  exact (if_neg (by show ¬ c.toNat ≤ 127; omega)).trans
    ((if_neg (by show ¬ c.toNat ≤ 2047; omega)).trans (if_neg (Nat.not_le.2 h)))

/-- The first bytes by the number of bytes that follow them. -/
inductive Announces (b : UInt8) : First → Prop where
  | one (h : b.toNat ≤ 0x7f) : Announces b (.whole (Char.ofNat b.toNat))
  | two (h : 0xc2 ≤ b.toNat) (h' : b.toNat ≤ 0xdf) :
    Announces b (.part ⟨b, 1, b.toNat - 0xc0, 0, 0x80, 0xbf⟩)
  | three (h : 0xe0 ≤ b.toNat) (h' : b.toNat ≤ 0xef) :
    Announces b (.part ⟨b, 1, b.toNat - 0xe0, 1, if b.toNat = 0xe0 then 0xa0 else 0x80,
      if b.toNat = 0xed then 0x9f else 0xbf⟩)
  | four (h : 0xf0 ≤ b.toNat) (h' : b.toNat ≤ 0xf4) :
    Announces b (.part ⟨b, 1, b.toNat - 0xf0, 2, if b.toNat = 0xf0 then 0x90 else 0x80,
      if b.toNat = 0xf4 then 0x8f else 0xbf⟩)
  | invalid (h : 0x7f < b.toNat ∧ b.toNat < 0xc2 ∨ 0xf4 < b.toNat) : Announces b .invalid

theorem announces_first (b : UInt8) : Announces b (first b) := by
  have hthree := Announces.three (b := b)
  have hfour := Announces.four (b := b)
  unfold first
  simp only
  split
  · exact .one ‹_›
  split
  · exact .invalid (.inl (by omega))
  split
  · exact .two (by omega) ‹_›
  split
  · next h => simpa [h] using hthree
  split
  · next h => simpa [h] using hthree
  split
  · next hother hsurrogate hle =>
    have := hthree (by omega) hle
    rwa [if_neg hother, if_neg hsurrogate] at this
  split
  · next h => simpa [h] using hfour
  split
  · next hother hle =>
    have := hfour (by omega) (by omega)
    rwa [if_neg hother, if_neg (by omega)] at this
  split
  · next h => simpa [h] using hfour
  · exact .invalid (.inr (by omega))

/-- No two of the cases overlap. -/
theorem first_eq_iff {f : First} : first b = f ↔ Announces b f := by
  have hfirst := announces_first b
  constructor
  · intro h
    rw [← h]
    exact hfirst
  · intro h
    generalize first b = g at hfirst ⊢
    cases h <;> cases hfirst <;> first | omega | rfl

theorem part_of_first (h : first b = .part u) :
    u.byte = b ∧ u.length = 1 ∧ 0x80 ≤ u.low ∧ u.high ≤ 0xbf := by
  cases first_eq_iff.1 h with
  | two _ _ => exact ⟨rfl, rfl, Nat.le_refl _, Nat.le_refl _⟩
  | three _ _ | four _ _ =>
    refine ⟨rfl, rfl, ?_, ?_⟩
    · dsimp only
      split <;> omega
    · dsimp only
      split <;> omega

theorem fits_two_iff (h : 0xc2 ≤ b.toNat) :
    Unfinished.Fits ⟨b, 1, b.toNat - 0xc0, 0, 0x80, 0xbf⟩ v ↔ above 1 v + 0xc0 = b.toNat := by
  constructor
  · intro hfits
    have hbits : v / 64 = b.toNat - 0xc0 := hfits.bits
    simp only [above]
    omega
  · intro hlead
    simp only [above] at hlead
    refine ⟨?_, ?_, ?_⟩
    all_goals simp only [above]
    all_goals omega

theorem fits_three_iff (h : 0xe0 ≤ b.toNat) (h' : b.toNat ≤ 0xef) :
    Unfinished.Fits ⟨b, 1, b.toNat - 0xe0, 1, if b.toNat = 0xe0 then 0xa0 else 0x80,
        if b.toNat = 0xed then 0x9f else 0xbf⟩ v
      ↔ above 2 v + 0xe0 = b.toNat ∧ 0x7ff < v ∧ v.isValidChar := by
  unfold Nat.isValidChar
  constructor
  · intro hfits
    obtain ⟨hbits, hlow, hhigh⟩ := hfits
    simp only [above] at *
    -- the bounds of the next byte keep out what is too low and too high
    split at hlow <;> split at hhigh <;> omega
  · intro hv
    obtain ⟨hlead, hwide, hvalid⟩ := hv
    simp only [above] at hlead
    refine ⟨?_, ?_, ?_⟩
    all_goals simp only [above]
    · omega
    · split <;> omega
    · split <;> omega

theorem fits_four_iff (h : 0xf0 ≤ b.toNat) (h' : b.toNat ≤ 0xf4) :
    Unfinished.Fits ⟨b, 1, b.toNat - 0xf0, 2, if b.toNat = 0xf0 then 0x90 else 0x80,
        if b.toNat = 0xf4 then 0x8f else 0xbf⟩ v
      ↔ above 3 v + 0xf0 = b.toNat ∧ 0xffff < v ∧ v.isValidChar := by
  unfold Nat.isValidChar
  constructor
  · intro hfits
    obtain ⟨hbits, hlow, hhigh⟩ := hfits
    simp only [above] at *
    -- the bounds of the next byte keep out what is too low and too high
    split at hlow <;> split at hhigh <;> omega
  · intro hv
    obtain ⟨hlead, hwide, hvalid⟩ := hv
    simp only [above] at hlead
    refine ⟨?_, ?_, ?_⟩
    all_goals simp only [above]
    · omega
    · split <;> omega
    · split <;> omega

/-- The first byte of a character announces what the character fits. -/
theorem first_encodeChar (c : Char) :
    (∃ b, String.utf8EncodeChar c = [b] ∧ first b = .whole c)
      ∨ ∃ b u, String.utf8EncodeChar c = b :: following (u.owed + 1) c.toNat
        ∧ first b = .part u ∧ u.Fits c.toNat := by
  have hvalid : c.toNat.isValidChar := c.valid
  have htop : c.toNat < 0x110000 := by omega
  by_cases hone : c.toNat ≤ 0x7f
  · have hb := toNat_byte (n := c.toNat) (by omega)
    have hfirst := first_eq_iff.2 (.one (b := UInt8.ofNat c.toNat) (by omega))
    rw [hb, Char.ofNat_toNat] at hfirst
    exact .inl ⟨_, encodeChar_one hone, hfirst⟩
  by_cases htwo : c.toNat ≤ 0x7ff
  · have hlead : 2 ≤ above 1 c.toNat ∧ above 1 c.toNat ≤ 0x1f := by
      simp only [above]
      omega
    have hb := toNat_byte (n := above 1 c.toNat + 0xc0) (by omega)
    exact .inr ⟨_, _, encodeChar_two (by omega) htwo,
      first_eq_iff.2 (.two (by omega) (by omega)), (fits_two_iff (by omega)).2 hb.symm⟩
  by_cases hthree : c.toNat ≤ 0xffff
  · have hlead : above 2 c.toNat ≤ 0xf := by
      simp only [above]
      omega
    have hb := toNat_byte (n := above 2 c.toNat + 0xe0) (by omega)
    exact .inr ⟨_, _, encodeChar_three (by omega) hthree,
      first_eq_iff.2 (.three (by omega) (by omega)),
      (fits_three_iff (by omega) (by omega)).2 ⟨hb.symm, by omega, hvalid⟩⟩
  · have hlead : above 3 c.toNat ≤ 4 := by
      simp only [above]
      omega
    have hb := toNat_byte (n := above 3 c.toNat + 0xf0) (by omega)
    exact .inr ⟨_, _, encodeChar_four (by omega),
      first_eq_iff.2 (.four (by omega) (by omega)),
      (fits_four_iff (by omega) (by omega)).2 ⟨hb.symm, by omega, hvalid⟩⟩

theorem encodeChar_of_whole {c : Char} (h : first b = .whole c) :
    String.utf8EncodeChar c = [b] := by
  cases first_eq_iff.1 h with
  | one hle =>
    obtain ⟨c, hc⟩ := exists_char (v := b.toNat) (.inl (by omega))
    rw [← hc, Char.ofNat_toNat, encodeChar_one (by omega), hc, UInt8.ofNat_toNat]

/-- What a first byte announces is fitted by the characters that start
with it only. -/
theorem exists_encodeChar_of_part (h : first b = .part u) (hv : u.Fits v) :
    ∃ c : Char, c.toNat = v ∧ String.utf8EncodeChar c = b :: following (u.owed + 1) v := by
  cases first_eq_iff.1 h with
  | two hle hle' =>
    have hb := (fits_two_iff hle).1 hv
    simp only [above] at hb
    obtain ⟨c, rfl⟩ := exists_char (v := v) (.inl (by omega))
    refine ⟨c, rfl, ?_⟩
    rw [encodeChar_two (by omega) (by omega), above, above, hb, UInt8.ofNat_toNat]
  | three hle hle' =>
    obtain ⟨hb, hwide, hvalid⟩ := (fits_three_iff hle hle').1 hv
    obtain ⟨c, rfl⟩ := exists_char hvalid
    have hnarrow : c.toNat ≤ 0xffff := by
      simp only [above] at hb
      omega
    refine ⟨c, rfl, ?_⟩
    rw [encodeChar_three hwide hnarrow, hb, UInt8.ofNat_toNat]
  | four hle hle' =>
    obtain ⟨hb, hwide, hvalid⟩ := (fits_four_iff hle hle').1 hv
    obtain ⟨c, rfl⟩ := exists_char hvalid
    refine ⟨c, rfl, ?_⟩
    rw [encodeChar_four hwide, hb, UInt8.ofNat_toNat]

-- =================================================================== texts

theorem decodeFrom_encodeChar (c : Char) :
    decodeFrom found position none (String.utf8EncodeChar c ++ rest)
      = decodeFrom (c :: found) (position + (String.utf8EncodeChar c).length) none rest := by
  rcases first_encodeChar c with ⟨b, hbytes, hfirst⟩ | ⟨b, u, hbytes, hfirst, hfits⟩
  · rw [hbytes, List.singleton_append, decodeFrom, hfirst]
    rfl
  · have hlength : u.length = 1 := (part_of_first hfirst).2.1
    have hposition : position + u.length + (u.owed + 1) = position + (u.owed + 1 + 1) := by omega
    rw [hbytes, List.cons_append, decodeFrom, hfirst]
    simp only
    rw [decodeFrom_following hfits, Char.ofNat_toNat, List.length_cons, length_following, hposition]

/-- Behind all that has been read stands the end, a character, or an error. -/
theorem decodeFrom_none_cases (found : List Char) (position : Nat) (bytes : List UInt8) :
    bytes = []
      ∨ (∃ r, decodeFrom found position none bytes = .error r ∧ r.Starts position bytes)
      ∨ ∃ c rest, bytes = String.utf8EncodeChar c ++ rest := by
  cases bytes with
  | nil => exact .inl rfl
  | cons b rest =>
    rw [decodeFrom]
    cases hfirst : first b with
    | whole c => exact .inr (.inr ⟨c, rest, by rw [encodeChar_of_whole hfirst]; rfl⟩)
    | invalid => exact .inr (.inl ⟨_, rfl, rfl, rfl, Nat.le_refl _, Nat.succ_pos _⟩)
    | part u =>
      obtain ⟨hbyte, hone, hlow, hhigh⟩ := part_of_first hfirst
      refine .inr ((decodeFrom_some_cases found position hlow hhigh rest).imp ?_ ?_)
      · rintro ⟨r, hr, hposition, hsame, hmore, hless⟩
        refine ⟨r, hr, hposition, ?_, hone ▸ hmore, ?_⟩
        · rw [hsame, hbyte]
          rfl
        · rw [List.length_cons]
          omega
      · rintro ⟨v, later, hfits, rfl⟩
        obtain ⟨c, -, hc⟩ := exists_encodeChar_of_part hfirst hfits
        exact ⟨c, later, by rw [hc]; rfl⟩

/-- The reader takes an encoded text and goes on behind it. -/
theorem decodeFrom_encode (text : List Char) :
    decodeFrom found position none (encode text ++ rest)
      = decodeFrom (text.reverse ++ found) (position + (encode text).length) none rest := by
  induction text generalizing found position with
  | nil => rfl
  | cons c text ih =>
    have hencode : encode (c :: text) = String.utf8EncodeChar c ++ encode text := rfl
    rw [hencode, List.append_assoc, decodeFrom_encodeChar, ih, List.length_append,
      List.reverse_cons, List.append_assoc, Nat.add_assoc]
    rfl

/-- The bytes start with a text, behind which they end or are refused. -/
theorem exists_encode_append (found : List Char) (position : Nat) (bytes : List UInt8) :
    ∃ text rest, bytes = encode text ++ rest
      ∧ (rest = [] ∨ ∃ r, decodeFrom found position none bytes = .error r
        ∧ r.Starts (position + (encode text).length) rest) := by
  rcases decodeFrom_none_cases found position bytes with hend | herror | ⟨c, rest, hbytes⟩
  · exact ⟨[], [], hend, .inl rfl⟩
  · exact ⟨[], bytes, rfl, .inr herror⟩
  · obtain ⟨text, later, hrest, hstop⟩ :=
      exists_encode_append (c :: found) (position + (String.utf8EncodeChar c).length) rest
    have hencode : encode (c :: text) = String.utf8EncodeChar c ++ encode text := rfl
    refine ⟨c :: text, later, ?_, hstop.imp_right ?_⟩
    · rw [hbytes, hrest, hencode, List.append_assoc]
    · rintro ⟨r, hr, hstarts⟩
      refine ⟨r, ?_, ?_⟩
      · rw [hbytes, decodeFrom_encodeChar, hr]
      · rw [hencode, List.length_append, ← Nat.add_assoc]
        exact hstarts
termination_by bytes.length
decreasing_by
  have := c.utf8Size_pos
  rw [hbytes, List.length_append, String.length_utf8EncodeChar]
  omega

/-- Nothing in front of where the reader stands is refused. -/
theorem le_position_of_error {bytes : List UInt8} {r : Refusal}
    (h : decodeFrom found position none bytes = .error r) : position ≤ r.position := by
  obtain ⟨text, rest, hbytes, rfl | ⟨other, hother, hstarts⟩⟩ :=
    exists_encode_append found position bytes
  · rw [hbytes, decodeFrom_encode] at h
    cases h
  · cases h.symm.trans hother
    rw [hstarts.position]
    exact Nat.le_add_right _ _

theorem decode_encode (text : List Char) : decode (encode text) = .ok text := by
  have hread : decodeFrom [] 0 none (encode text ++ [])
      = decodeFrom (text.reverse ++ []) (0 + (encode text).length) none [] :=
    decodeFrom_encode text
  rw [List.append_nil, List.append_nil] at hread
  unfold decode
  rw [hread, decodeFrom, List.reverse_reverse]

/-- Exactly the encoded texts are read. -/
theorem decode_eq_ok_iff {bytes : List UInt8} {text : List Char} :
    decode bytes = .ok text ↔ bytes = encode text := by
  constructor
  · intro h
    obtain ⟨other, rest, hbytes, rfl | ⟨r, hr, -⟩⟩ := exists_encode_append [] 0 bytes
    · rw [List.append_nil] at hbytes
      rw [hbytes, decode_encode] at h
      cases h
      exact hbytes
    · cases h.symm.trans hr
  · intro h
    rw [h]
    exact decode_encode text

/-- The bytes are those of some text. -/
def WellFormed (bytes : List UInt8) : Prop :=
  ∃ text, bytes = encode text

/-- The longest well-formed sequence that the bytes start with. -/
structure LongestWellFormed (bytes head : List UInt8) : Prop where
  starts : head <+: bytes
  wellFormed : WellFormed head
  length_le : ∀ other, other <+: bytes → WellFormed other → other.length ≤ head.length

/-- Bytes that are not well formed are refused behind the longest
well-formed sequence that they start with. -/
theorem exists_refusal {bytes : List UInt8} (h : ¬ WellFormed bytes) :
    ∃ r head rest, decode bytes = .error r ∧ bytes = head ++ rest
      ∧ LongestWellFormed bytes head ∧ r.Starts head.length rest := by
  obtain ⟨text, rest, hbytes, rfl | ⟨r, hr, hstarts⟩⟩ := exists_encode_append [] 0 bytes
  · exact absurd ⟨text, hbytes.trans (List.append_nil _)⟩ h
  · have hposition := hstarts.position
    rw [Nat.zero_add] at hstarts hposition
    refine ⟨r, encode text, rest, hr, hbytes, ⟨⟨rest, hbytes.symm⟩, ⟨text, rfl⟩, ?_⟩, hstarts⟩
    intro _ hstarts hwell
    obtain ⟨later, hlater⟩ := hstarts
    obtain ⟨other, rfl⟩ := hwell
    -- the reader takes any other well-formed part too, and is refused behind it
    rw [← hlater, decodeFrom_encode] at hr
    have := le_position_of_error hr
    omega

-- ============================================================== in words

/-- Bytes behind the first `n` ones, in words: one byte is shown, of several
the first and the last place are named. -/
def placeOf (n : Nat) : List UInt8 → String
  | [b] => s!"byte 0x{hexByte b} in position {n}"
  | bad => s!"bytes in position {n}-{n + bad.length - 1}"

/-- What is said about bad bytes behind the first `n` ones. -/
def complaint (n : Nat) (bad : List UInt8) (reason : Reason) : String :=
  s!"'utf-8' codec can't decode {placeOf n bad}: {reason.message}"

theorem placeOf_of_length {n : Nat} {bad : List UInt8} (h : bad.length ≠ 1) :
    placeOf n bad = s!"bytes in position {n}-{n + bad.length - 1}" := by
  unfold placeOf
  split
  · exact absurd rfl h
  · rfl

theorem Refusal.message_eq (r : Refusal) {bad : List UInt8} (hbyte : bad.head? = some r.byte)
    (hlength : bad.length = r.length) :
    r.message = complaint r.position bad r.reason := by
  have hplace : placeOf r.position bad
      = if r.length = 1 then s!"byte 0x{hexByte r.byte} in position {r.position}"
        else s!"bytes in position {r.position}-{r.position + r.length - 1}" := by
    rw [← hlength]
    split
    · next hone =>
      obtain ⟨b, rfl⟩ := List.length_eq_one_iff.1 hone
      cases hbyte
      rfl
    · next hone => exact placeOf_of_length hone
  unfold complaint
  rw [hplace]
  rfl

/-- A refusal names the place of the bytes that it is about. -/
theorem Refusal.exists_message {r : Refusal} {n : Nat} {bytes : List UInt8}
    (h : r.Starts n bytes) :
    ∃ bad later, bytes = bad ++ later ∧ bad ≠ [] ∧ r.message = complaint n bad r.reason := by
  have hlength : (bytes.take r.length).length = r.length := List.length_take_of_le h.length_le
  have hbyte : (bytes.take r.length).head? = some r.byte := by
    rw [List.head?_take, if_neg (Nat.ne_of_gt h.length_pos), h.byte]
  have hsome : bytes.take r.length ≠ [] := by
    rw [← List.length_pos_iff, hlength]
    exact h.length_pos
  have hmessage := r.message_eq hbyte hlength
  rw [h.position] at hmessage
  exact ⟨_, _, (List.take_append_drop r.length bytes).symm, hsome, hmessage⟩

/-- A character of three bytes that breaks off behind its second one. -/
example : complaint 1 [0xe2, 0x82] .endOfData
    = "'utf-8' codec can't decode bytes in position 1-2: unexpected end of data" := by
  decide +kernel

end TexMath.Text.Utf8
