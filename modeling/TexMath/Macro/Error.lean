/-
Errors of macro definitions and invocations.

An error has a cause and, when it is known, the location of the control
sequence it is about. The message of the cause stands alone; the full
message adds the location, whatever location it is. A cause that cannot
be put into words, for a number with too many digits, makes no error: the
fault takes its place (`Raised`).
-/
import TexMath.Macro.Datum
import TexMath.Span

namespace TexMath.Macro

-- ================================================================= causes

/-- Why a macro definition is refused. -/
inductive Refusal where
  | noNames
  | negativeArity (arity : Int)
  /-- A value that names no macro. -/
  | invalidName (offered : Datum)
  /-- A name that is bound already. -/
  | taken (name : String)
  /-- A reason in words of its own. -/
  | other (text : String)

namespace Refusal

/-- The reason in words. -/
def message : Refusal → Except Fault String
  | noNames => .ok "Macro must have at least one name"
  | negativeArity arity =>
    (Text.decimal arity).map fun arity => s!"Macro arity must be non-negative, got {arity}"
  | invalidName offered => offered.display.map fun shown => s!"Invalid macro name {shown}"
  | taken name => .ok s!"Macro '\\{name}' is already registered"
  | other text => .ok text

end Refusal

/-- What an error is about. -/
inductive Cause where
  /-- Anything, in words of its own. -/
  | general (text : String)
  /-- A definition that is refused. -/
  | registration (why : Refusal)
  /-- A control sequence that no macro is bound to. -/
  | unknown (name : String)
  /-- More arguments than the macro accepts. -/
  | arity (name : String) (accepted given : Int)

namespace Cause

/-- The cause in words, without a location. -/
def message : Cause → Except Fault String
  | general text => .ok text
  | registration why => why.message
  | unknown name => .ok s!"Undefined control sequence '\\{name}'"
  | arity name accepted given =>
    match Text.decimal accepted, Text.decimal given with
    | .ok accepted, .ok given =>
      .ok s!"Macro '\\{name}' takes at most {accepted} argument(s), got {given}"
    | .error fault, _ => .error fault
    | .ok _, .error fault => .error fault

end Cause

-- ================================================================= errors

/-- A cause with the location it is about, if known. -/
structure Error where
  cause : Cause
  position : Option Span

namespace Error

/-- The message with the location at its end, if there is one. -/
def message (e : Error) : Except Fault String :=
  e.cause.message.map fun text =>
    match e.position with
    | some span => s!"{text} at {span.text}"
    | none => text

end Error

/-- What is raised in the place of an answer. -/
inductive Raised where
  | error (e : Error)
  /-- The error cannot be put into words. -/
  | fault (f : Fault)

namespace Error

/-- The error, where it can be put into words. -/
def raise (e : Error) : Raised :=
  match e.cause.message with
  | .ok _ => .error e
  | .error fault => .fault fault

theorem raise_of_message {e : Error} {text : String} (h : e.cause.message = .ok text) :
    e.raise = .error e := by
  unfold raise
  rw [h]

theorem raise_of_fault {e : Error} {fault : Fault} (h : e.cause.message = .error fault) :
    e.raise = .fault fault := by
  unfold raise
  rw [h]

end Error

end TexMath.Macro
