/-
What a run of the program writes and how it ends.

The source is read as a whole and decoded; all of it is lexed before
anything is printed. The tokens go to the standard output, one on a
line; log records and the source with its diagnostics go to the standard
error, in the order in which they are made. A record that is less grave
than the level asked for is not shown, and only the level DEBUG has the
lexer log every token.

What the system reports about a source that cannot be read ends the run
with an exit code, and so do bytes that encode no text. Any other fault is
caught by nothing. Without a level the run ends before anything is read.
-/
import TexMath.CommandLine.Arguments
import TexMath.Diagnostic
import TexMath.Lexer
import TexMath.Text.Utf8

namespace TexMath.CommandLine

-- ================================================================ reading

/-- Why the bytes of a source cannot be had. -/
inductive ReadRefusal where
  /-- The system reports an error, in these words. -/
  | system (words : String)
  /-- Something fails, in these words, that is no error of the system. -/
  | other (words : String)
deriving DecidableEq, Repr

/-- The words of an error of the system: its number, the reason, and the
name of the file when the error is about one. -/
def systemWords (number : Nat) (reason : String) (name? : Option String) : String :=
  s!"[Errno {number}] {reason}" ++ name?.elim "" fun name => s!": {Text.quoted name}"

/-- A name that holds a NUL character is no name of a file, and the system
is not asked. -/
def ReadRefusal.nulInName : ReadRefusal :=
  .other "embedded null byte"

/-- The bytes of a source, when they can be had. -/
abbrev Contents := Except ReadRefusal (List UInt8)

-- ============================================================== responses

/-- Something written to the standard error. -/
inductive Entry where
  | record (r : Log.Record)
  | plain (text : String)
deriving DecidableEq, Repr

namespace Entry

/-- The entry as it is written. -/
def text : Entry → String
  | record r => s!"{r.text}\n"
  | plain text => text

/-- Records are seen from their level on, plain text always. -/
def seenFrom (threshold : Log.Level) : Entry → Bool
  | record r => r.seenFrom threshold
  | plain _ => true

end Entry

/-- How a run ends. -/
inductive Ending where
  | exit (code : Nat)
  /-- A fault of the lexer or of the diagnostics. -/
  | fault (f : Fault)
  /-- What has kept the source from being read, in these words. -/
  | unreadable (words : String)
  /-- No log level to show records from. -/
  | noLevel
deriving DecidableEq, Repr

/-- What an ending says, unless it is an exit code. -/
def Ending.message? : Ending → Option String
  | exit _ => none
  | fault f => some f.message
  | unreadable words => some words
  | noLevel => some "attribute name must be string, not 'list'"

/-- What a run writes and how it ends. -/
structure Response where
  output : String
  errors : List Entry
  ending : Ending
deriving DecidableEq, Repr

namespace Response

/-- All that is written to the standard error. -/
def errorText (r : Response) : String :=
  String.join (r.errors.map Entry.text)

/-- The response with the records less grave than `threshold` left out. -/
def seenFrom (r : Response) (threshold : Log.Level) : Response :=
  { r with errors := r.errors.filter (·.seenFrom threshold) }

end Response

-- =================================================================== runs

/-- A record of the program itself. -/
def programRecord (level : Log.Level) (message : String) : Entry :=
  .record ⟨level, "watex", message⟩

/-- The response to a source that cannot be read. -/
def unreadable (sourceName reason : String) : Response :=
  ⟨"", [programRecord .error s!"Cannot read {sourceName}: {reason}"], .exit 2⟩

/-- A token as it is printed, on a line of its own. -/
def tokenLine (t : Located Token) : String :=
  s!"{t.span.line}:{t.span.column}\t{t.val.display}\n"

/-- Tokens as they are printed. -/
def tokenLines (tokens : List (Located Token)) : String :=
  String.join (tokens.map tokenLine)

/-- What is written to the standard error about diagnostics, which are
rendered as `text`, if there are any. -/
def diagnosticEntries (text : String) (ds : List Diagnostic) : List Entry :=
  if ds.isEmpty then []
  else [.plain text, programRecord .info s!"{ds.length} lexical error(s)"]

/-- The response to a source text. -/
def respondToText (o : Options) (sourceName code : String) : Response :=
  let (answer, lexer) := (Lexer.ofString code (o.level = some .debug)).rest
  let lexing := programRecord .info s!"Lexing {sourceName}" :: lexer.log.toList.map .record
  match answer with
  | .error f => ⟨"", lexing, .fault f⟩
  | .ok tokens =>
    let ds := Diagnostic.collect tokens
    match Diagnostic.renderAll code ds with
    | .error f => ⟨tokenLines tokens, lexing, .fault f⟩
    | .ok text =>
      ⟨tokenLines tokens, lexing ++ diagnosticEntries text ds,
        .exit (if o.strict && !ds.isEmpty then 1 else 0)⟩

/-- The response to the bytes of a source. -/
def respondToBytes (o : Options) (sourceName : String) (bytes : List UInt8) : Response :=
  match Text.Utf8.decode bytes with
  | .error refusal => unreadable sourceName refusal.message
  | .ok text => respondToText o sourceName (String.ofList text)

/-- The name of the file to read; an empty name is none. -/
def Options.file? (o : Options) : Option String :=
  o.filename.filter (· ≠ "")

/-- What the source is called. -/
def Options.sourceName (o : Options) : String :=
  o.file?.getD "<stdin>"

/-- What is read. `read` gives the contents of files, and `input` is what
the standard input gives. -/
def Options.contents (o : Options) (read : String → Contents) (input : Contents) : Contents :=
  match o.file? with
  | none => input
  | some name => read name

/-- The response to the options, every record seen. -/
def respondInFull (o : Options) (read : String → Contents) (input : Contents) : Response :=
  match o.contents read input with
  | .ok bytes => respondToBytes o o.sourceName bytes
  | .error (.system words) => unreadable o.sourceName words
  | .error (.other words) => ⟨"", [], .unreadable words⟩

/-- The response to the options. -/
def respond (o : Options) (read : String → Contents) (input : Contents) : Response :=
  match o.level with
  | none => ⟨"", [], .noLevel⟩
  | some level => (respondInFull o read input).seenFrom level

/-- The response to the arguments of the command line. -/
def run (args : List String) (read : String → Contents) (input : Contents) : Response :=
  match Request.ofArguments args with
  | .error e => ⟨"", [.plain e.text], .exit 2⟩
  | .ok .help => ⟨helpText, [], .exit 0⟩
  | .ok (.run o) => respond o read input

end TexMath.CommandLine
