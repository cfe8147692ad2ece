/-
Sets of characters given as lists of code point ranges in increasing
order, both ends of a range included. The tables of the text modules
are such lists; membership is the only question asked of them.
-/
namespace TexMath.Text

/-- A set of code points, as increasing ranges with both ends included. -/
abbrev Ranges := List (Nat × Nat)

namespace Ranges

/-- Increasing: each range ends before the next one starts. -/
def Increasing (ranges : Ranges) : Prop :=
  ranges.Pairwise fun r s => r.2 < s.1

/-- A character is in the set when one of the ranges holds its code
point; the search ends at the first range that starts behind it. -/
def has : Ranges → Char → Bool
  | [], _ => false
  | (first, last) :: rest, c =>
    if c.toNat < first then false
    else if c.toNat ≤ last then true
    else has rest c

/-- Of increasing ranges, the early end of the search misses none. -/
theorem has_iff {ranges : Ranges} {c : Char} (h : ∀ r ∈ ranges, r.1 ≤ r.2)
    (inc : ranges.Increasing) :
    ranges.has c = true ↔ ∃ r ∈ ranges, r.1 ≤ c.toNat ∧ c.toNat ≤ r.2 := by
  induction ranges with
  | nil => simp [has]
  | cons r rest ih =>
    obtain ⟨first, last⟩ := r
    have inc' := List.pairwise_cons.1 inc
    have later := ih (fun s hs => h s (List.mem_cons_of_mem _ hs)) inc'.2
    have bound := h _ List.mem_cons_self
    simp only [has, List.mem_cons, exists_eq_or_imp]
    split
    · next low =>
      simp only [Bool.false_eq_true, false_iff, not_or, not_exists, not_and]
      exact ⟨by omega, fun s hs => by have := inc'.1 s hs; simp only at this bound; omega⟩
    · next low =>
      split
      · next high => simp only [true_iff]; left; omega
      · next high => rw [later]; simp only [high, and_false, false_or]

end Ranges

end TexMath.Text
