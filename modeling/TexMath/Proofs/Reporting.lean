/-
Reporting: the program says of the bytes of its source what the library
says of the text that they encode.

# Readable sources

Whatever the arguments are, a source that can be read is answered by its
bytes alone (`run_of_contents`). The bytes of a text are decoded to that
text, line ends included, and so its tokens are printed as `tokenize`
has them; at the level WARNING nothing but the printed diagnostics of
those tokens is left of the standard error (`errorText_of_warning`). A
text without tokens ends the run in front of all output.

# Refused bytes

Bytes that encode no text are refused, and the one record that says so
names the place of the first bad ones, behind the longest part in front
that does encode a text (`Utf8.Refusal.exists_message`).

# Arguments

A report takes its options as they are. An ordinary command line asks for
those that its items spell out (`Request.ofArguments_items`). The
separator is accepted in the place of a level, and nothing is reported
then (`run_separator_unreported`).
-/
import TexMath.Proofs.Arguments
import TexMath.Proofs.Responses

namespace TexMath.CommandLine

open Text

variable {o : Options} {level : Log.Level} {args : List String} {read : String → Contents}
variable {input : Contents} {bytes : List UInt8} {code : String}

-- ======================================================== readable sources

/-- A source that can be read is answered by its bytes. -/
theorem run_of_contents (hargs : Request.ofArguments args = .ok (.run o))
    (hlevel : o.level = some level) (hbytes : o.contents read input = .ok bytes) :
    run args read input = (respondToBytes o o.sourceName bytes).seenFrom level := by
  unfold run respond
  simp only [hargs, hlevel, respondInFull_of_contents hbytes]

/-- From the level WARNING on the printed diagnostics are all that is
seen of a run that meets no fault. -/
theorem errorText_of_warning {ds : List Diagnostic} {text : String}
    (h : Diagnostic.renderAll code ds = .ok text) (debug : Bool) (source : String) :
    String.join (((lexingEntries debug source code ++ diagnosticEntries text ds).filter
      (·.seenFrom .warning)).map Entry.text) = text := by
  rw [List.filter_append, filter_lexingEntries .warning nofun]
  cases ds with
  | nil =>
    cases h
    rfl
  | cons d ds => exact String.empty_append

-- ================================================================= the run

/-- An ordinary command line asks for the options of its items; WARNING is
the level when none of them gives one. A run over bytes that can be read
depends on the arguments by their options alone. Where the bytes encode a
string that has tokens, those are printed with their places, at the level
WARNING the printed diagnostics of the string are all that goes to the
standard error, and the run fails when it is strict and there is an error.
Where the string has no tokens, its fault escapes in front of all output.
Where the bytes encode no string, the run fails with one record, unless
only graver ones are shown: it names the place of the bad bytes, which
stand behind the longest part in front that encodes a string. -/
theorem run_reports (read : String → Contents) (input : Contents) :
    (∀ items : List Item, Item.Plain items →
        Request.ofArguments (items.flatMap Item.arguments) = .ok (.run (Item.options items)))
    ∧ ∀ (args : List String) (o : Options) (level : Log.Level) (bytes : List UInt8),
        Request.ofArguments args = .ok (.run o) → o.level = some level →
        o.contents read input = .ok bytes →
        let r := run args read input
        (∀ (code : String) (tokens : List (Located Token)),
            bytes = Utf8.encode code.toList → tokenize code = .ok tokens →
            r.output = String.join (tokens.map fun t =>
              s!"{t.span.line}:{t.span.column}\t{t.val.display}\n")
            ∧ (level = .warning →
              Diagnostic.renderAll code (Diagnostic.collect tokens) = .ok r.errorText)
            ∧ r.ending = .exit (if o.strict && tokens.any (·.val.isError) then 1 else 0))
        ∧ (∀ (code : String) (fault : Fault),
            bytes = Utf8.encode code.toList → tokenize code = .error fault →
            r.output = "" ∧ r.ending = .fault fault)
        ∧ (¬ Utf8.WellFormed bytes →
            r.output = "" ∧ r.ending = .exit 2
            ∧ ∃ (head bad later : List UInt8) (reason : Utf8.Reason),
              bytes = head ++ (bad ++ later) ∧ Utf8.LongestWellFormed bytes head ∧ bad ≠ []
              ∧ r.errors = if level = .critical then [] else
                  [.record ⟨.error, "watex",
                    s!"Cannot read {o.sourceName}: {Utf8.complaint head.length bad reason}"⟩]) := by
  refine ⟨fun items hplain => Request.ofArguments_items hplain, ?_⟩
  intro args o level bytes hargs hlevel hbytes r
  have hr : r = (respondToBytes o o.sourceName bytes).seenFrom level :=
    run_of_contents hargs hlevel hbytes
  refine ⟨?_, ?_, ?_⟩
  · intro code tokens hcode htokens
    obtain ⟨text, htext⟩ := exists_renderAll htokens
    rw [hcode, respondToBytes_encode, respondToText_of_ok htokens htext] at hr
    rw [hr]
    refine ⟨rfl, ?_, rfl⟩
    intro hwarning
    rw [htext, hwarning]
    exact congrArg Except.ok (errorText_of_warning htext _ o.sourceName).symm
  · intro code fault hcode hfault
    rw [hcode, respondToBytes_encode, respondToText_of_error hfault] at hr
    rw [hr]
    exact ⟨rfl, rfl⟩
  · intro hbad
    obtain ⟨refusal, head, rest, hdecode, hrest, hlongest, hstarts⟩ := Utf8.exists_refusal hbad
    obtain ⟨bad, later, hsplit, hsome, hmessage⟩ :=
      Utf8.Refusal.exists_message hstarts
    rw [respondToBytes_of_refusal hdecode, hmessage] at hr
    rw [hr]
    refine ⟨rfl, rfl, head, bad, later, refusal.reason, hsplit ▸ hrest, hlongest, hsome, ?_⟩
    cases level <;> rfl

/-- A file with an error behind a carriage return, named behind a level that
does not count, and an input that breaks off within a character. -/
theorem run_reports_mixed :
    let read : String → Contents := fun _ => .ok [0x61, 0x0d, 0x23]
    let r := run ["--log-level=DEBUG", "f", "--strict", "--log-level", "WARNING"] read (.ok [])
    let refused := run ["--log-level=INFO"] read (.ok [0x61, 0xe2, 0x82])
    r.output = "1:1\tToken(CHAR, 'a')\n1:2\tToken(WHITESPACE, '\\r')\n"
        ++ "1:3\tToken(ERROR, IllegalCharacter('#'))\n"
    ∧ Diagnostic.renderAll "a\r#" [.ofIllegalCharacter ⟨"#"⟩ ⟨1, 3⟩] = .ok r.errorText
    ∧ r.ending = .exit 1
    ∧ refused.output = "" ∧ refused.ending = .exit 2
    ∧ ∃ (head bad later : List UInt8) (reason : Utf8.Reason),
      [0x61, 0xe2, 0x82] = head ++ (bad ++ later)
      ∧ Utf8.LongestWellFormed [0x61, 0xe2, 0x82] head ∧ bad ≠ []
      ∧ refused.errors =
        [.record ⟨.error, "watex",
          s!"Cannot read <stdin>: {Utf8.complaint head.length bad reason}"⟩] := by
  intro read r refused
  have htokens : tokenize "a\r#" = .ok [⟨.char "a", ⟨1, 1⟩⟩, ⟨.whitespace "\r", ⟨1, 2⟩⟩,
      ⟨.error ⟨"#"⟩, ⟨1, 3⟩⟩] := by
    decide +kernel
  have hbad : ¬ Utf8.WellFormed [0x61, 0xe2, 0x82] := by
    rintro ⟨text, htext⟩
    cases Utf8.decode_eq_ok_iff.2 htext
  obtain ⟨hitems, hruns⟩ := run_reports read (.ok [])
  have hstrict := hitems [.level .debug true, .file "f", .strict, .level .warning false]
    ⟨by decide, by simp⟩
  obtain ⟨-, hrefusals⟩ := run_reports read (.ok [0x61, 0xe2, 0x82])
  have hinfo := hitems [.level .info true] ⟨by decide, by simp⟩
  obtain ⟨hread, -, -⟩ := hruns _ _ .warning _ hstrict rfl rfl
  obtain ⟨-, -, hrefused⟩ := hrefusals _ _ .info _ hinfo rfl rfl
  obtain ⟨houtput, herrors, hending⟩ := hread "a\r#" _ rfl htokens
  exact ⟨houtput.trans (by decide +kernel), herrors rfl, hending, hrefused hbad⟩

/-- The separator is accepted in the place of a level. Such a run prints
nothing, and so not every accepted run prints the tokens of its source. -/
theorem run_separator_unreported :
    let read : String → Contents := fun _ => .ok []
    run ["--log-level=--"] read (.ok [0x61]) = ⟨"", [], .noLevel⟩
    ∧ ¬ ∀ (args : List String) (o : Options) (code : String) (tokens : List (Located Token)),
      Request.ofArguments args = .ok (.run o) →
      o.contents read (.ok [0x61]) = .ok (Utf8.encode code.toList) → tokenize code = .ok tokens →
      (run args read (.ok [0x61])).output = tokenLines tokens := by
  intro read
  have hrun : run ["--log-level=--"] read (.ok [0x61]) = ⟨"", [], .noLevel⟩ := by
    decide +kernel
  refine ⟨hrun, fun hall => ?_⟩
  have htokens : tokenize "a" = .ok [⟨.char "a", ⟨1, 1⟩⟩] := by decide +kernel
  have hargs : Request.ofArguments ["--log-level=--"] = .ok (.run ⟨none, none, false⟩) := by
    decide +kernel
  have houtput := hall _ _ "a" _ hargs rfl htokens
  rw [hrun] at houtput
  exact absurd houtput (by decide +kernel)

end TexMath.CommandLine
