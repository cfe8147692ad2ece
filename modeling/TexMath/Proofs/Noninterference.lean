/-
Noninterference: what the flags of the program leave alone.

# The level

A response as it is seen from a level does not depend on the level that
was asked for, as long as that is not graver (`respondInFull_seenFrom`).
The level decides about the tokens' records only, and those are of the
least grave level: whoever asks for another one does not see them.

# Strictness

The strict program says what the lenient one says (`respondInFull_strict`)
and fails where that one succeeds over a source with errors.

The flags are given as words of the command line: one more `--log-level`,
or one more `--strict`, behind the words of an ordinary command line asks
for the same run but for the level, or for strictness
(`ofArguments_level`, `ofArguments_strict`).

# No level

The separator in the place of a level is accepted as no level. Such a run
ends before anything is read (`run_separator_as_level`), and so the first
part is about levels that have a name.
-/
import TexMath.Proofs.Arguments
import TexMath.Proofs.Responses

namespace TexMath.CommandLine

open Text

variable {read : String → Contents} {input : Contents}

-- =============================================================== the level

/-- What a level shows is seen of what a less grave level shows. -/
theorem Response.seenFrom_seenFrom (r : Response) {level less : Log.Level}
    (h : less.gravity ≤ level.gravity) : (r.seenFrom less).seenFrom level = r.seenFrom level := by
  unfold Response.seenFrom
  rw [List.filter_filter]
  congr 2
  funext e
  cases e with
  | plain text => rfl
  | record r =>
    show (decide (level.gravity ≤ r.level.gravity) && decide (less.gravity ≤ r.level.gravity))
      = decide (level.gravity ≤ r.level.gravity)
    simp only [← Bool.decide_and, decide_eq_decide]
    omega

/-- The level that a run is asked for is not seen from a graver one. -/
theorem respondToText_seenFrom {o p : Options} (hstrict : p.strict = o.strict)
    {level : Log.Level} (h : level = .debug → p.level = o.level) (source code : String) :
    (respondToText p source code).seenFrom level
      = (respondToText o source code).seenFrom level := by
  have hlexing : (lexingEntries (p.level = some .debug) source code).filter (·.seenFrom level)
      = (lexingEntries (o.level = some .debug) source code).filter (·.seenFrom level) := by
    by_cases hdebug : level = .debug
    · rw [h hdebug]
    · rw [filter_lexingEntries level hdebug, filter_lexingEntries level hdebug]
  unfold Response.seenFrom
  cases htokens : tokenize code with
  | error fault =>
    rw [respondToText_of_error htokens, respondToText_of_error htokens]
    simp only [hlexing]
  | ok tokens =>
    obtain ⟨text, htext⟩ := exists_renderAll htokens
    rw [respondToText_of_ok htokens htext, respondToText_of_ok htokens htext]
    simp only [List.filter_append, hlexing, hstrict]

theorem respondInFull_seenFrom (o p : Options) (hfile : p.filename = o.filename)
    (hstrict : p.strict = o.strict) {level : Log.Level}
    (h : level = .debug → p.level = o.level) :
    (respondInFull p read input).seenFrom level = (respondInFull o read input).seenFrom level := by
  rcases respondInFull_cases o read input with ⟨code, -, hcode⟩ | hsame
  · rw [hcode p hfile, hcode o rfl]
    exact respondToText_seenFrom hstrict h _ code
  · rw [hsame p hfile]

-- ================================================================ requests

/-- The source is read, and its text has an error. -/
def Options.MeetsError (o : Options) (read : String → Contents) (input : Contents) : Prop :=
  o.level.isSome ∧ ∃ (code : String) (tokens : List (Located Token)),
    o.contents read input = .ok (Utf8.encode code.toList) ∧ tokenize code = .ok tokens
    ∧ ∃ t ∈ tokens, t.val.isError

namespace Request

/-- The request with another level to show records from. -/
def atLevel (level : Log.Level) : Request → Request
  | help => help
  | run o => run { o with level := some level }

/-- The request with another strictness. -/
def strictly (strict : Bool) : Request → Request
  | help => help
  | run o => run { o with strict }

/-- The request has a source read, and its text has an error. -/
def MeetsError (q : Request) (read : String → Contents) (input : Contents) : Prop :=
  match q with
  | help => False
  | run o => o.MeetsError read input

end Request

-- ================================================================== flags

/-- One more level behind an ordinary command line asks for that level. -/
theorem ofArguments_level {items : List Item} (h : Item.Plain items) (level : Log.Level)
    (attached : Bool) :
    Request.ofArguments ((items ++ [Item.level level attached]).flatMap Item.arguments)
      = .ok ((Request.run (Item.options items)).atLevel level) := by
  rw [Request.ofArguments_items (h.append rfl), Item.options_append_level]
  rfl

/-- One more `--strict` behind an ordinary command line asks for
strictness. -/
theorem ofArguments_strict {items : List Item} (h : Item.Plain items) :
    Request.ofArguments ((items ++ [Item.strict]).flatMap Item.arguments)
      = .ok ((Request.run (Item.options items)).strictly true) := by
  rw [Request.ofArguments_items (h.append rfl), Item.options_append_strict]
  rfl

variable {args other : List String} {q : Request} {level less : Log.Level}

/-- A graver level shows a part of what a less grave level shows. -/
theorem run_atLevel_of_le (hargs : Request.ofArguments args = .ok (q.atLevel level))
    (hother : Request.ofArguments other = .ok (q.atLevel less)) (h : less.gravity ≤ level.gravity) :
    run args read input = (run other read input).seenFrom level := by
  unfold run
  rw [hargs, hother]
  cases q with
  | help => rfl
  | run o =>
    show (respondInFull { o with level := some level } read input).seenFrom level
      = ((respondInFull { o with level := some less } read input).seenFrom less).seenFrom level
    rw [Response.seenFrom_seenFrom _ h]
    apply respondInFull_seenFrom { o with level := some less } { o with level := some level }
      rfl rfl
    intro hdebug
    -- nothing is less grave than the least grave level
    subst hdebug
    cases less with
    | debug => rfl
    | _ => exact absurd h (by decide)

-- ============================================================== strictness

/-- Strictness has no part in what is written. -/
theorem respondInFull_strict (read : String → Contents) (input : Contents) (o p : Options)
    (hfile : p.filename = o.filename) (hlevel : p.level = o.level) :
    (respondInFull p read input).output = (respondInFull o read input).output
      ∧ (respondInFull p read input).errors = (respondInFull o read input).errors := by
  rcases respondInFull_cases o read input with ⟨code, -, hcode⟩ | hsame
  · rw [hcode p hfile, hcode o rfl]
    cases htokens : tokenize code with
    | error fault =>
      rw [respondToText_of_error htokens, respondToText_of_error htokens, hlevel]
      exact ⟨rfl, rfl⟩
    | ok tokens =>
      obtain ⟨text, htext⟩ := exists_renderAll htokens
      rw [respondToText_of_ok htokens htext, respondToText_of_ok htokens htext, hlevel]
      exact ⟨rfl, rfl⟩
  · rw [hsame p hfile]
    exact ⟨rfl, rfl⟩

/-- Over a source with an error strictness decides how the run ends. -/
theorem ending_of_meetsError {o : Options} (h : o.MeetsError read input) :
    (respondInFull o read input).ending = .exit (if o.strict then 1 else 0) := by
  obtain ⟨-, code, tokens, hsource, htokens, t, ht, herror⟩ := h
  obtain ⟨text, htext⟩ := exists_renderAll htokens
  have hany : tokens.any (·.val.isError) = true := List.any_eq_true.2 ⟨t, ht, herror⟩
  rw [respondInFull_of_contents hsource, respondToBytes_encode, respondToText_of_ok htokens htext,
    hany, Bool.and_true]

/-- Over any other source it does not. -/
theorem ending_of_not_meetsError {o p : Options} (hlevel : o.level.isSome)
    (h : ¬ o.MeetsError read input) (hfile : p.filename = o.filename) :
    (respondInFull p read input).ending = (respondInFull o read input).ending := by
  rcases respondInFull_cases o read input with ⟨code, hsource, hcode⟩ | hsame
  · rw [hcode p hfile, hcode o rfl]
    cases htokens : tokenize code with
    | error fault => rw [respondToText_of_error htokens, respondToText_of_error htokens]
    | ok tokens =>
      obtain ⟨text, htext⟩ := exists_renderAll htokens
      have hany : tokens.any (·.val.isError) = false := by
        rw [List.any_eq_false]
        intro t ht herror
        exact h ⟨hlevel, code, tokens, hsource, htokens, t, ht, herror⟩
      rw [respondToText_of_ok htokens htext, respondToText_of_ok htokens htext, hany,
        Bool.and_false, Bool.and_false]
  · rw [hsame p hfile]

/-- A strict run and a lenient one say the same, and they end the same way
unless the source has an error. -/
theorem respond_strict (o : Options) (read : String → Contents) (input : Contents) :
    let r := respond { o with strict := false } read input
    let s := respond { o with strict := true } read input
    r.output = s.output ∧ r.errors = s.errors
      ∧ (o.MeetsError read input → r.ending = .exit 0 ∧ s.ending = .exit 1)
      ∧ (¬ o.MeetsError read input → r.ending = s.ending) := by
  obtain ⟨filename, level, strict⟩ := o
  cases level with
  | none => exact ⟨rfl, rfl, fun h => absurd h.1 nofun, fun _ => rfl⟩
  | some level =>
    obtain ⟨houtput, herrors⟩ := respondInFull_strict read input
      ⟨filename, some level, true⟩ ⟨filename, some level, false⟩ rfl rfl
    refine ⟨houtput, congrArg (List.filter (Entry.seenFrom level)) herrors, ?_, ?_⟩
    · intro h
      exact ⟨ending_of_meetsError (o := ⟨filename, some level, false⟩) h,
        ending_of_meetsError (o := ⟨filename, some level, true⟩) h⟩
    · intro h
      exact ending_of_not_meetsError (o := ⟨filename, some level, true⟩) rfl h rfl

-- ================================================================= the runs

/-- Two runs over one input, which can be read or not. If they are asked for
the same but for the level, they print the same tokens and end the same way,
and the graver level shows exactly those entries of the other run's that are
grave enough, in order; the level DEBUG is less grave than any. If they are
asked for the same but for strictness, they write the same, and the strict
one fails in the place of success exactly when the source is read and has an
error. Flags behind an ordinary command line ask for just that. -/
theorem run_noninterfering (args other : List String) (q : Request) (read : String → Contents)
    (input : Contents) :
    let r := run args read input
    let s := run other read input
    (∀ level less : Log.Level, Request.ofArguments args = .ok (q.atLevel level) →
        Request.ofArguments other = .ok (q.atLevel less) →
        r.output = s.output ∧ r.ending = s.ending
        ∧ (less.gravity ≤ level.gravity → r.errors = s.errors.filter (·.seenFrom level)))
    ∧ (Request.ofArguments args = .ok (q.strictly false) →
        Request.ofArguments other = .ok (q.strictly true) →
        r.output = s.output ∧ r.errors = s.errors
        ∧ (q.MeetsError read input → r.ending = .exit 0 ∧ s.ending = .exit 1)
        ∧ (¬ q.MeetsError read input → r.ending = s.ending))
    ∧ ∀ items : List Item, Item.Plain items →
        (∀ level attached,
          Request.ofArguments ((items ++ [Item.level level attached]).flatMap Item.arguments)
            = .ok ((Request.run (Item.options items)).atLevel level))
        ∧ Request.ofArguments ((items ++ [Item.strict]).flatMap Item.arguments)
          = .ok ((Request.run (Item.options items)).strictly true) := by
  intro r s
  refine ⟨?_, ?_, fun items hplain =>
    ⟨fun level attached => ofArguments_level hplain level attached, ofArguments_strict hplain⟩⟩
  · intro level less hargs hother
    have hsame : r.output = s.output ∧ r.ending = s.ending := by
      rcases Nat.le_total less.gravity level.gravity with hle | hle
      · have hr : r = s.seenFrom level := run_atLevel_of_le hargs hother hle
        rw [hr]
        exact ⟨rfl, rfl⟩
      · have hs : s = r.seenFrom less := run_atLevel_of_le hother hargs hle
        rw [hs]
        exact ⟨rfl, rfl⟩
    refine ⟨hsame.1, hsame.2, ?_⟩
    intro hle
    exact congrArg Response.errors (run_atLevel_of_le hargs hother hle)
  · intro hargs hother
    have hr : r = run args read input := rfl
    have hs : s = run other read input := rfl
    unfold run at hr hs
    rw [hargs] at hr
    rw [hother] at hs
    rw [hr, hs]
    cases q with
    | help => exact ⟨rfl, rfl, False.elim, fun _ => rfl⟩
    | run o => exact respond_strict o read input

/-- A `#` on the standard input, at two levels and in two ways, and a file
that the system does not give away. -/
theorem run_noninterfering_marker :
    let read : String → Contents :=
      fun name => .error (.system (systemWords 13 "Permission denied" name))
    (run ["--log-level=INFO"] read (.ok [0x23])).errors
        = (run ["--log-level=DEBUG"] read (.ok [0x23])).errors.filter (·.seenFrom .info)
      ∧ (run [] read (.ok [0x23])).output = (run ["--strict"] read (.ok [0x23])).output
      ∧ (run [] read (.ok [0x23])).ending = .exit 0
      ∧ (run ["--strict"] read (.ok [0x23])).ending = .exit 1
      ∧ (run ["f", "--log-level=CRITICAL"] read (.ok [])).errors
        = (run ["f", "--log-level=ERROR"] read (.ok [])).errors.filter (·.seenFrom .critical) := by
  intro read
  obtain ⟨hlevels, -⟩ := run_noninterfering ["--log-level=INFO"] ["--log-level=DEBUG"]
    (.run .default) read (.ok [0x23])
  obtain ⟨-, hstrict, -⟩ := run_noninterfering [] ["--strict"] (.run .default) read (.ok [0x23])
  obtain ⟨hrefused, -, hitems⟩ := run_noninterfering ["f", "--log-level=CRITICAL"]
    ["f", "--log-level=ERROR"] (.run (Item.options [.file "f"])) read (.ok [])
  obtain ⟨-, -, herrors⟩ := hlevels .info .debug (by decide +kernel) (by decide +kernel)
  obtain ⟨houtput, -, hending, -⟩ := hstrict (by decide +kernel) (by decide +kernel)
  obtain ⟨hfile, -⟩ := hitems [.file "f"] ⟨by decide, by simp⟩
  obtain ⟨-, -, hshown⟩ := hrefused .critical .error (hfile .critical true) (hfile .error true)
  have htokens : tokenize "#" = .ok [⟨.error ⟨"#"⟩, ⟨1, 1⟩⟩] := by decide +kernel
  have hmeets : (Request.run .default).MeetsError read (.ok [0x23]) :=
    ⟨rfl, "#", _, rfl, htokens, _, List.mem_singleton_self _, rfl⟩
  obtain ⟨hlenient, hfailed⟩ := hending hmeets
  exact ⟨herrors (by decide), houtput, hlenient, hfailed, hshown (by decide)⟩

/-- The separator is accepted in the place of a level. Such a run ends
before anything is read, so that what it prints is not what the same run
prints with a level, nor does it end the same way. -/
theorem run_separator_as_level :
    Request.ofArguments ["--log-level=DEBUG"] = .ok (.run ⟨none, some .debug, false⟩)
      ∧ Request.ofArguments ["--log-level=--"] = .ok (.run ⟨none, none, false⟩)
      ∧ (run ["--log-level=DEBUG"] (fun _ => .ok []) (.ok [0x61])).output
        = "1:1\tToken(CHAR, 'a')\n"
      ∧ (run ["--log-level=DEBUG"] (fun _ => .ok []) (.ok [0x61])).ending = .exit 0
      ∧ run ["--log-level=--"] (fun _ => .ok []) (.ok [0x61]) = ⟨"", [], .noLevel⟩ := by
  decide +kernel

end TexMath.CommandLine
