/-
What can go wrong, apart from lexical errors, which are tokens.

A source may fail with a text of its own; a run of digits may be too
long to be read as a number; and a source may announce a negative
number of remaining characters, or one that does not fit a machine
word. None of these ends a stream: a step that fails leaves a state
behind, and the next step goes on from it. `Attempt` is the shape of
such steps, an answer or a fault together with the state left in either
case.

A number may have too many digits to be written out, and a caret fails
to be placed when the spaces in front of it cannot be counted in a
machine word.
-/
namespace TexMath

-- ================================================================= faults

/-- The most digits that a number may have to be read or written out. -/
def digitLimit : Nat := 4300

/-- Whether a number is the value of a signed machine word, of 64 bits. -/
def fitsWord (n : Int) : Bool :=
  -0x8000000000000000 ≤ n && n < 0x8000000000000000

/-- Why a step failed. -/
inductive Fault where
  /-- The source itself failed. -/
  | source (text : String)
  /-- A run of `digits` digits exceeds the limit. -/
  | tooManyDigits (digits : Nat)
  /-- A number to be written out has more digits than the limit. -/
  | numberTooLong
  /-- The source announced less than no characters. -/
  | negativeHint
  /-- An announced number of characters does not fit a machine word. -/
  | hintOutOfRange
  /-- A column does not fit a machine word. -/
  | columnOutOfRange
deriving DecidableEq, Repr

namespace Fault

/-- The message of a fault. -/
def message : Fault → String
  | source text => text
  | tooManyDigits digits =>
    s!"Exceeds the limit ({digitLimit} digits) for integer string conversion: " ++
      s!"value has {digits} digits; use sys.set_int_max_str_digits() to increase the limit"
  | numberTooLong =>
    s!"Exceeds the limit ({digitLimit} digits) for integer string conversion; " ++
      "use sys.set_int_max_str_digits() to increase the limit"
  | negativeHint => "__length_hint__() should return >= 0"
  | hintOutOfRange => "Python int too large to convert to C ssize_t"
  | columnOutOfRange => "cannot fit 'int' into an index-sized integer"

end Fault

instance decidableEqExcept {ε α : Type} [DecidableEq ε] [DecidableEq α] :
    DecidableEq (Except ε α)
  | .error a, .error b => decidable_of_iff (a = b) ⟨congrArg _, Except.error.inj⟩
  | .ok a, .ok b => decidable_of_iff (a = b) ⟨congrArg _, Except.ok.inj⟩
  | .error _, .ok _ => .isFalse nofun
  | .ok _, .error _ => .isFalse nofun

-- =============================================================== attempts

/-- What a step that may fail answers, with the state it leaves. -/
abbrev Attempt (σ α : Type) := Except Fault α × σ

namespace Attempt

variable {σ τ α β : Type}

/-- The same step with another reading of its answer. -/
def map (f : α → β) (r : Attempt σ α) : Attempt σ β :=
  (r.1.map f, r.2)

/-- The same step with its state seen as part of a larger one. -/
def within (f : σ → τ) (r : Attempt σ α) : Attempt τ α :=
  (r.1, f r.2)

end Attempt

end TexMath
