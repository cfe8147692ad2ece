/-
The arguments of the command line.

Each argument is first read as a word on its own: a long option, with or
without a value attached by an equals sign, the option `-h` with more
one-letter options run on to it, the separator `--` behind which every
word is a name, or a name. A long option may be cut short as long as
only one option starts that way. A word that starts with a hyphen is
still a name when it is the hyphen alone, looks like a negative number,
or holds a space.

The words then act from left to right. The first name is the file; the
separator goes unnoticed in front of it and right behind it; what nobody
asked for is collected and refused at the end. A request for help is
granted on the spot, before any refusal that a later word would bring.
A log level that is spelled like the separator is accepted as no level
at all, and the options are left without one until a later word names
one.
-/
import TexMath.Log
import TexMath.Text.Digit
import TexMath.Text.Quoted

namespace TexMath.CommandLine

-- ================================================================ options

/-- What the arguments ask for, when they ask for a run. -/
structure Options where
  /-- The name of the source file, if one is given. -/
  filename : Option String
  /-- The least grave level of records that are shown, unless it has
  been given as none. -/
  level : Option Log.Level
  /-- Lexical errors count as failure. -/
  strict : Bool
deriving DecidableEq, Repr

/-- No arguments. -/
def Options.default : Options := ⟨none, some .warning, false⟩

/-- The options that exist. -/
inductive Flag where
  | help
  | logLevel
  | strict
deriving DecidableEq, Repr

/-- Every spelling of an option, in the order of their listing. -/
def spellings : List (String × Flag) :=
  [("-h", .help), ("--help", .help), ("--log-level", .logLevel), ("--strict", .strict)]

namespace Flag

/-- All spellings of an option, as messages name it. -/
def title (f : Flag) : String :=
  "/".intercalate ((spellings.filter (·.2 = f)).map (·.1))

end Flag

-- =============================================================== refusals

/-- Why the arguments are refused. -/
inductive UsageError where
  /-- A shortened option that several options start with. -/
  | ambiguous (text : String) (candidates : List String)
  /-- A value attached to an option that takes none. -/
  | ignoredValue (flag : Flag) (value : String)
  /-- An option without the value it takes. -/
  | missingValue (flag : Flag)
  /-- A value that is no log level. -/
  | invalidLevel (value : String)
  /-- Words that nobody asked for. -/
  | unrecognized (texts : List String)
deriving DecidableEq, Repr

namespace UsageError

/-- The refusal in words. -/
def message : UsageError → String
  | ambiguous text candidates =>
    s!"ambiguous option: {text} could match " ++ ", ".intercalate candidates
  | ignoredValue flag value =>
    s!"argument {flag.title}: ignored explicit argument {Text.quoted value}"
  | missingValue flag => s!"argument {flag.title}: expected one argument"
  | invalidLevel value =>
    let levels := ", ".intercalate (Log.Level.all.map fun level => Text.quoted level.name)
    s!"argument {Flag.logLevel.title}: invalid choice: {Text.quoted value} (choose from {levels})"
  | unrecognized texts => "unrecognized arguments: " ++ " ".intercalate texts

end UsageError

-- ================================================================== words

/-- One argument, read on its own. -/
inductive Word where
  /-- A name. -/
  | name (text : String)
  /-- The first `--`. -/
  | separator
  /-- An option, with the value attached to it. -/
  | option (flag : Flag) (value : Option String)
  /-- The option `-h` with the letters run on to it, directly or behind
  an equals sign. -/
  | helpCluster (letters : List Char)
  /-- What looks like an option and is none. -/
  | unknown (text : String)
deriving DecidableEq, Repr

/-- A word at its first equals sign: what is in front of it, and what is
behind it if there is one. -/
def splitValue (word : List Char) : List Char × Option (List Char) :=
  match word.dropWhile (· ≠ '=') with
  | [] => (word, none)
  | _ :: value => (word.takeWhile (· ≠ '='), some value)

/-- Digits, or digits around a point with at least one behind it; a
newline at the end does not count. `text` is what stands behind a
hyphen. -/
def looksNegative (text : List Char) : Bool :=
  let body := if text.getLast? = some '\n' then text.dropLast else text
  match body.dropWhile Text.isDecimalDigit with
  | [] => !body.isEmpty
  | '.' :: fraction => !fraction.isEmpty && fraction.all Text.isDecimalDigit
  | _ => false

namespace Word

/-- A word that starts with a hyphen and matches no option. -/
def ofUnmatched (text : String) : Word :=
  if looksNegative (text.toList.drop 1) || text.toList.contains ' ' then .name text
  else .unknown text

/-- A word that starts with two hyphens: the one option that starts like
it, up to an attached value, or unmatched. No option in full starts like
another one. -/
def ofLong (text : String) : Except UsageError Word :=
  let (stem, value) := splitValue text.toList
  match spellings.filter fun (spelling, _) => stem.isPrefixOf spelling.toList with
  | [] => .ok (ofUnmatched text)
  | [(_, flag)] => .ok (.option flag (value.map String.ofList))
  | several => .error (.ambiguous text (several.map (·.1)))

/-- Reads one argument that is not the separator. -/
def ofArgument (text : String) : Except UsageError Word :=
  match text.toList with
  | ['-'] => .ok (.name text)
  | '-' :: '-' :: _ => ofLong text
  | ['-', 'h'] => .ok (.option .help none)
  | '-' :: 'h' :: '=' :: letters => .ok (.helpCluster letters)
  | '-' :: 'h' :: letters => .ok (.helpCluster letters)
  | '-' :: _ => .ok (ofUnmatched text)
  | _ => .ok (.name text)

/-- Reads the arguments; behind the separator each one is a name. -/
def ofArguments : List String → Except UsageError (List Word)
  | [] => .ok []
  | text :: rest =>
    if text = "--" then .ok (.separator :: rest.map .name)
    else
      match ofArgument text, ofArguments rest with
      | .error e, _ => .error e
      | .ok _, .error e => .error e
      | .ok word, .ok words => .ok (word :: words)

end Word

-- =============================================================== requests

/-- What the arguments ask for. -/
inductive Request where
  | help
  | run (options : Options)
deriving DecidableEq, Repr

namespace Request

/-- The letters run on to `-h`: more of it up to the end ask for help;
from the first other letter on they are a value that it does not take. -/
def ofCluster : List Char → Except UsageError Request
  | ['h'] => .ok .help
  | 'h' :: letters => ofCluster letters
  | value => .error (.ignoredValue .help (String.ofList value))

/-- The options with another log level, unless there is no such level;
`--` is no level at all, and is accepted. -/
def withLevel (o : Options) (name : String) : Except UsageError Options :=
  if name = "--" then .ok { o with level := none }
  else
    match Log.Level.ofName? name with
    | some level => .ok { o with level := some level }
    | none => .error (.invalidLevel name)

/-- Lets the words act in order, behind words that have given the
options `o` and left the words `extras` over. -/
def ofWords (o : Options) (extras : List String) : List Word → Except UsageError Request
  | [] => if extras.isEmpty then .ok (.run o) else .error (.unrecognized extras)
  | .name text :: .separator :: rest =>
    match o.filename with
    | none => ofWords { o with filename := some text } extras rest
    | some _ => ofWords o (extras ++ [text, "--"]) rest
  | .name text :: rest =>
    match o.filename with
    | none => ofWords { o with filename := some text } extras rest
    | some _ => ofWords o (extras ++ [text]) rest
  | .separator :: rest =>
    match o.filename with
    | none => ofWords o extras rest
    | some _ => ofWords o (extras ++ ["--"]) rest
  | .option .help none :: _ => .ok .help
  | .option .strict none :: rest => ofWords { o with strict := true } extras rest
  | .option .logLevel none :: .name text :: rest =>
    match withLevel o text with
    | .ok p => ofWords p extras rest
    | .error e => .error e
  | .option .logLevel none :: _ => .error (.missingValue .logLevel)
  | .option .logLevel (some text) :: rest =>
    match withLevel o text with
    | .ok p => ofWords p extras rest
    | .error e => .error e
  | .option flag (some value) :: _ => .error (.ignoredValue flag value)
  | .helpCluster letters :: _ => ofCluster letters
  | .unknown text :: rest => ofWords o (extras ++ [text]) rest

/-- Reads the arguments and lets them act. -/
def ofArguments (args : List String) : Except UsageError Request :=
  Word.ofArguments args >>= ofWords .default []

end Request

-- ================================================================== texts

/-- How the program is called. -/
def usage : String :=
  "usage: watex [-h] [--log-level \x7bDEBUG,INFO,WARNING,ERROR,CRITICAL\x7d] [--strict]\n" ++
    "             [filename]\n"

/-- The answer to a request for help. -/
def helpText : String :=
  usage ++
    "\nTokenize LaTeX math-mode source.\n" ++
    "\npositional arguments:\n" ++
    "  filename              Path to the source file. Reads stdin if omitted.\n" ++
    "\noptions:\n" ++
    "  -h, --help            show this help message and exit\n" ++
    "  --log-level \x7bDEBUG,INFO,WARNING,ERROR,CRITICAL\x7d\n" ++
    "                        Set the logging level.\n" ++
    "  --strict              Exit with status 1 if any lexical error is found.\n"

/-- What is said about refused arguments. -/
def UsageError.text (e : UsageError) : String :=
  s!"{usage}watex: error: {e.message}\n"

end TexMath.CommandLine
