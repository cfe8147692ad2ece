/-
Histories of a registry: steps taken in order, and what they leave.

The bindings of a registry are a matter of its history alone: a name is
bound to the macro that was registered last, with success, among those
that have the name. `registered` lists the successful registrations of
a run, and `latest` reads the binding of a name off such a list.

A registration succeeds when its definition is accepted: every name is
bound then. It answers with the macro, unless the arity has too many
digits for the record of it; that comes too late to undo anything, and so
the macro is registered although the step raises a fault.
-/
import TexMath.Macro.Registry

namespace TexMath.Registry

variable {ε : Type}

-- ================================================================== steps

/-- One thing that may be done with a registry. -/
inductive Step (ε : Type) where
  | register (m : Macro ε) (replace : Bool)
  | decorate (id : Nat) (handler : Macro.Handler ε) (names : List Macro.Datum) (arity : Int)
  | lookup (name : String)
  | contains (name : String)
  | names
  | size
  | invoke (name : String) (args : List (List (Located Token))) (position : Option Span)

/-- What a step answers. -/
inductive Answer (ε : Type) where
  | registered (r : Except Macro.Raised (Macro ε))
  | found (m : Option (Macro ε))
  | held (b : Bool)
  | names (ns : List String)
  | count (n : Nat)
  | expansion (r : Except (Failure ε) Expansion)

/-- Takes a step. -/
def step (r : Registry ε) : Step ε → Answer ε × Registry ε
  | .register m replace =>
    let (outcome, t) := r.register m replace
    (.registered outcome, t)
  | .decorate id handler names arity =>
    let (outcome, t) := r.decorate id handler names arity
    (.registered outcome, t)
  | .lookup name => (.found (r.lookup name), r)
  | .contains name => (.held (r.contains name), r)
  | .names => (.names r.names, r)
  | .size => (.count r.size, r)
  | .invoke name args position => (.expansion (r.invoke name args position), r)

/-- Takes steps in order. -/
def run (r : Registry ε) : List (Step ε) → List (Answer ε) × Registry ε
  | [] => ([], r)
  | s :: steps =>
    let (answer, t) := r.step s
    let (answers, u) := t.run steps
    (answer :: answers, u)

-- ============================================================== histories

/-- The macro that a step asks to register, and whether that may replace
others. -/
def Step.attempt? : Step ε → Option (Macro ε × Bool)
  | .register m replace => some (m, replace)
  | .decorate id handler given arity => some (.ofHandler id handler given arity, false)
  | _ => none

/-- The macro that a step registers: the one that it asks to register,
unless that is refused. -/
def accepted? (r : Registry ε) (x : Step ε) : Option (Macro ε) :=
  match x.attempt? with
  | some (m, replace) => if (r.refusal? m replace).isNone then some m else none
  | none => none

/-- The macros that the steps register with success, in order. -/
def registered (r : Registry ε) : List (Step ε) → List (Macro ε)
  | [] => []
  | x :: steps => (r.accepted? x).toList ++ (r.step x).2.registered steps

/-- The macro that an answer hands back as registered. -/
def Answer.registered? : Answer ε → Option (Macro ε)
  | .registered (.ok m) => some m
  | _ => none

/-- Of macros registered in order, the last one that has the name. -/
def latest (ms : List (Macro ε)) (name : String) : Option (Macro ε) :=
  ms.reverse.find? fun m => m.boundNames.contains name

end TexMath.Registry
