/-
The macro registry: control sequence names bound to macros.

A macro has a handler, the names it is to be bound to, and the greatest
number of arguments it accepts. A registration is all or nothing: a
definition is refused as a whole for the first reason that applies, in
the order no names, negative arity, and then name by name an invalid
name before a name that is taken; a refused definition leaves the
registry as it was. A registration that may replace takes no name for
taken.

A registration is recorded when its names are bound, and the record
displays the definition. Where the arity has too many digits for that,
the names are bound, there is no record, and the registration raises the
fault in the place of its answer.

An invocation looks the name up, checks the number of arguments, and
then calls the handler, whose outcome is its own. It only reads the
registry. How a handler is called is a parameter (`invokeIn`), so that
the calls can be observed.

Bindings are kept in an extensional map, so registries that bind the
same names to the same macros are equal in their bindings.
-/
import Std.Data.ExtTreeMap
import TexMath.Log
import TexMath.Macro.Error
import TexMath.Token

namespace TexMath

-- ================================================================= macros

/-- The tokens a macro expands to. -/
abbrev Expansion := List (Located Token)

namespace Macro

/-- What a handler is told about an invocation. -/
structure Context where
  /-- The name the macro was invoked by. -/
  name : String
  args : List (List (Located Token))
  /-- The location of the control sequence, if known. -/
  position : Option Span

/-- A named function from invocations to expansions, which may raise an
error of the type `ε`. -/
structure Handler (ε : Type) where
  name : String
  run : Context → Except ε Expansion

end Macro

/-- A macro definition. The number `id` tells definitions apart that
agree in all else. -/
structure Macro (ε : Type) where
  id : Nat
  handler : Macro.Handler ε
  names : List Macro.Datum
  arity : Int

namespace Macro

variable {ε : Type}

/-- The names the definition binds when it is registered. -/
def boundNames (m : Macro ε) : List String :=
  m.names.filterMap Datum.name?

/-- A definition under the given names. -/
def ofGiven (id : Nat) (handler : Handler ε) (given : Given) (arity : Int) : Macro ε :=
  ⟨id, handler, given.values, arity⟩

/-- A definition under the given names, or under the handler's own name
when none are given. -/
def ofHandler (id : Nat) (handler : Handler ε) (names : List Datum) (arity : Int) : Macro ε :=
  ⟨id, handler, if names.isEmpty then [.string handler.name] else names, arity⟩

/-- The definition as a constructor call. -/
def display (m : Macro ε) : Except Fault String :=
  match Datum.displayTuple m.names, Text.decimal m.arity with
  | .ok names, .ok arity =>
    .ok s!"TexMacro({Text.quoted m.handler.name}, names={names}, arity={arity})"
  | .error fault, _ => .error fault
  | .ok _, .error fault => .error fault

end Macro

-- =============================================================== registry

/-- Names bound to macros, with the records of the registrations. -/
structure Registry (ε : Type) where
  bindings : Std.ExtTreeMap String (Macro ε)
  log : Array Log.Record

namespace Registry

variable {ε : Type}

/-- The registry that binds nothing. -/
def empty : Registry ε := ⟨∅, #[]⟩

/-- The macro bound to a name. -/
def lookup (r : Registry ε) (name : String) : Option (Macro ε) :=
  r.bindings[name]?

/-- Whether a name is bound. -/
def contains (r : Registry ε) (name : String) : Bool :=
  (r.lookup name).isSome

/-- The bound names, in increasing order of their code points. -/
def names (r : Registry ε) : List String :=
  r.bindings.keys

/-- The number of bound names. -/
def size (r : Registry ε) : Nat :=
  r.bindings.size

-- =========================================================== registration

/-- Why an offered name cannot be bound, if it cannot. -/
def nameRefusal? (r : Registry ε) (replace : Bool) (offered : Macro.Datum) :
    Option Macro.Refusal :=
  match offered.name? with
  | none => some (.invalidName offered)
  | some name => if r.contains name && !replace then some (.taken name) else none

/-- Why a definition is refused, if it is. -/
def refusal? (r : Registry ε) (m : Macro ε) (replace : Bool) : Option Macro.Refusal :=
  if m.names.isEmpty then some .noNames
  else if m.arity < 0 then some (.negativeArity m.arity)
  else m.names.findSome? (r.nameRefusal? replace)

/-- The bindings with every name in the list bound to `m`. -/
def bindAll (bindings : Std.ExtTreeMap String (Macro ε)) (m : Macro ε) (names : List String) :
    Std.ExtTreeMap String (Macro ε) :=
  names.foldl (fun b name => b.insert name m) bindings

/-- The registry with a macro bound to each of its names. -/
def bind (r : Registry ε) (m : Macro ε) : Registry ε :=
  { r with bindings := bindAll r.bindings m m.boundNames }

/-- The registry with the record of a registration in its log, where the
macro is displayed as `shown`. -/
def recorded (r : Registry ε) (shown : String) : Registry ε :=
  { r with log := r.log.push ⟨.debug, "watex.registry", s!"Registered {shown}"⟩ }

/-- Binds a macro to each of its names and records it, or refuses it. -/
def register (r : Registry ε) (m : Macro ε) (replace : Bool) :
    Except Macro.Raised (Macro ε) × Registry ε :=
  match r.refusal? m replace with
  | some why => (.error (Macro.Error.raise ⟨.registration why, none⟩), r)
  | none =>
    match m.display with
    | .ok shown => (.ok m, (r.bind m).recorded shown)
    | .error fault => (.error (.fault fault), r.bind m)

/-- Registers a handler under the given names, or under its own name
when none are given. -/
def decorate (r : Registry ε) (id : Nat) (handler : Macro.Handler ε)
    (names : List Macro.Datum) (arity : Int) : Except Macro.Raised (Macro ε) × Registry ε :=
  r.register (.ofHandler id handler names arity) false

-- ============================================================= invocation

/-- Why an invocation has no expansion. -/
inductive Failure (ε : Type) where
  /-- The registry refused it. -/
  | refused (error : Macro.Error)
  /-- The handler raised an error. -/
  | raised (error : ε)

/-- A handler with what it is told. -/
structure Call (ε : Type) where
  callee : Macro ε
  context : Macro.Context

/-- What the handler makes of a call. -/
def Call.outcome (c : Call ε) : Except ε Expansion :=
  c.callee.handler.run c.context

/-- An invocation of a name where a handler is called through `call`, which
may have effects: the outcome is that of the bound macro's handler, unless
no macro is bound or there are too many arguments. An arity that is
exceeded is smaller than the length of a list, and no list is so long that
its length has too many digits. -/
def invokeIn {μ : Type → Type} [Monad μ] (call : Call ε → μ (Except ε Expansion))
    (r : Registry ε) (name : String) (args : List (List (Located Token)))
    (position : Option Span) : μ (Except (Failure ε) Expansion) :=
  match r.lookup name with
  | none => return .error (.refused ⟨.unknown name, position⟩)
  | some m =>
    if m.arity < args.length then
      return .error (.refused ⟨.arity name m.arity args.length, position⟩)
    else return (← call ⟨m, name, args, position⟩).mapError .raised

/-- The outcome of invoking a name, where handlers have no effects. -/
def invoke (r : Registry ε) (name : String) (args : List (List (Located Token)))
    (position : Option Span) : Except (Failure ε) Expansion :=
  Id.run (r.invokeIn (fun c => pure c.outcome) name args position)

end Registry

end TexMath
