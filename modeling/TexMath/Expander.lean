/-
The expander: the stage behind the lexer where macros are to be
expanded. It holds a registry and forwards every token unchanged; no
control sequence is substituted.
-/
import TexMath.Lexer
import TexMath.Macro.Registry

namespace TexMath

/-- A lexer seen through a registry. -/
structure Expander (ε : Type) where
  lexer : Lexer
  registry : Registry ε

namespace Expander

variable {ε : Type}

/-- The next token; nothing at the end. -/
def nextToken (e : Expander ε) : Attempt (Expander ε) (Option (Located Token)) :=
  e.lexer.nextToken.within fun lexer => { e with lexer }

theorem size_lt_of_nextToken {e later : Expander ε} {token : Located Token}
    (h : e.nextToken = (.ok (some token), later)) :
    later.lexer.chars.size < e.lexer.chars.size := by
  obtain ⟨h1, rfl⟩ := Prod.mk.inj h
  exact Lexer.size_lt_of_nextToken (Prod.ext h1 rfl)

/-- All tokens that are left, in front of which the tokens `found` have
been read, the last one first. -/
def collect (found : List (Located Token)) (e : Expander ε) :
    Attempt (Expander ε) (List (Located Token)) :=
  match _h : e.nextToken with
  | (.ok (some token), later) => collect (token :: found) later
  | (.ok none, later) => (.ok found.reverse, later)
  | (.error fault, later) => (.error fault, later)
termination_by e.lexer.chars.size
decreasing_by exact size_lt_of_nextToken ‹_›

/-- All tokens that are left. -/
def rest (e : Expander ε) : Attempt (Expander ε) (List (Located Token)) :=
  e.collect []

end Expander

end TexMath
