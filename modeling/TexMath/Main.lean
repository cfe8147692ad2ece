/-
The program: reads the source that the arguments name, writes what the
response says, and ends as it says. A fault that nothing catches is
written to the standard error and ends the program with the exit code 1.
-/
import TexMath.CommandLine.Response

namespace TexMath.CommandLine

/-- Reads all bytes of a stream. -/
partial def readAll (stream : IO.FS.Stream) (found : ByteArray) : IO ByteArray := do
  let chunk ← stream.read 65536
  if chunk.isEmpty then return found else readAll stream (found ++ chunk)

/-- What an error says about the file of the given name, or about the
standard input. The system numbers its errors. -/
def refusalOf (name? : Option String) : IO.Error → ReadRefusal
  | .alreadyExists _ number reason
  | .interrupted _ number reason
  | .noFileOrDirectory _ number reason
  | .invalidArgument _ number reason
  | .permissionDenied _ number reason
  | .resourceExhausted _ number reason
  | .inappropriateType _ number reason
  | .noSuchThing _ number reason
  | .otherError number reason
  | .resourceBusy number reason
  | .resourceVanished number reason
  | .unsupportedOperation number reason
  | .hardwareFault number reason
  | .unsatisfiedConstraints number reason
  | .illegalOperation number reason
  | .protocolError number reason
  | .timeExpired number reason => .system (systemWords number.toNat reason name?)
  | .unexpectedEof => .other "unexpected end of file"
  | .userError words => .other words

/-- Reads a file of the system. -/
def readFile (name : String) : IO Contents := do
  if '\x00' ∈ name.toList then return .error .nulInName
  try
    return .ok (← IO.FS.readBinFile name).toList
  catch e => return .error (refusalOf (some name) e)

/-- Reads the standard input to its end. -/
def readInput : IO Contents := do
  try
    return .ok (← readAll (← IO.getStdin) .empty).toList
  catch e => return .error (refusalOf none e)

/-- The options of the arguments, when they have the program read a
source. -/
def readingOptions? (args : List String) : Option Options :=
  match Request.ofArguments args with
  | .ok (.run o) => if o.level.isSome then some o else none
  | _ => none

/-- The name of the file that the arguments have the program read. -/
def fileToRead (args : List String) : Option String :=
  (readingOptions? args).bind (·.file?)

/-- Whether the arguments have the program read its standard input. -/
def readsInput (args : List String) : Bool :=
  (readingOptions? args).any (·.file?.isNone)

/-- Writes a response and gives the exit code. -/
def finish (r : Response) : IO UInt32 := do
  IO.print r.output
  IO.eprint r.errorText
  if let some message := r.ending.message? then IO.eprintln message
  match r.ending with
  | .exit code => return UInt32.ofNat code
  | _ => return 1

end TexMath.CommandLine

open TexMath.CommandLine in
/-- Runs the program on the arguments of the command line. -/
def main (args : List String) : IO UInt32 := do
  let file ← match fileToRead args with
    | some name => readFile name
    | none => pure (.ok [])
  let input ← if readsInput args then readInput else pure (.ok [])
  finish (run args (fun _ => file) input)
