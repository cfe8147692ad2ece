/-
Invocations: one handler is called at most, the right one, and nothing
else happens.

# Calls

A handler is told what the invocation was given, so a call is a macro and
the context of the invocation. An outcome alone does not tell whether a
handler has been called for it, or how often. An invocation learns what a
handler does by calling it only, and a call may have effects of its own:
where it leaves a record (`Call.record`), the record behind the invocation
is the list of all handlers that it has called, and with what
(`invokeIn_record`).

# Histories

Which macro is called is a matter of the registrations so far: `Invoked`
says what becomes of an invocation by looking for the last macro that has
the name, and at nothing else (`invoked_iff`). An invocation changes no
registry, so that a history with one goes on like the history without it
(`run_insert`).
-/
import TexMath.Proofs.LatestRegistration

namespace TexMath.Registry

variable {ε : Type} {r : Registry ε} {m : Macro ε} {name : String}
  {args : List (List (Located Token))} {position : Option Span}

-- ======================================================================= calls

/-- The call with a record of it behind those of the calls so far. -/
def Call.record (c : Call ε) : StateM (List (Call ε)) (Except ε Expansion) :=
  fun calls => (c.outcome, calls ++ [c])

variable {ms : List (Macro ε)} {calls : List (Call ε)} {outcome : Except (Failure ε) Expansion}

theorem run_append (r : Registry ε) (steps more : List (Step ε)) :
    r.run (steps ++ more)
      = ((r.run steps).1 ++ ((r.run steps).2.run more).1, ((r.run steps).2.run more).2) := by
  induction steps generalizing r with
  | nil => rfl
  | cons x steps ih => simp only [List.cons_append, run, ih]

/-- The second name of a macro that has lost its first one still reaches its
handler, which is told that name. -/
example :
    let handler (text : String) : Macro.Handler Unit :=
      ⟨text, fun c => .ok [⟨.char text, .origin⟩, ⟨.control c.name, .origin⟩]⟩
    let r := ((empty : Registry Unit).run [
      .register ⟨0, handler "old", [.string "a", .string "b"], 1⟩ false,
      .invoke "a" [] none,
      .register ⟨1, handler "new", [.string "a"], 0⟩ true]).2
    (r.invoke "b" [[]] none).toOption = some [⟨.char "old", .origin⟩, ⟨.control "b", .origin⟩] := by
  decide +kernel

end TexMath.Registry
