/-
Sessions: several consumers share one lexer.

A session is a lexer and the registry of an expander over it. A step
reads through the lexer, through the expander, or is a step of the
character stream below; it answers, or fails, and leaves the session
behind for the steps that follow. Restarting puts a new lexer over what
is left of the source: positions start again, and a character of
lookahead of the old lexer is lost.
-/
import TexMath.Expander

namespace TexMath

-- ================================================================== steps

/-- A lexer and the registry of an expander over it. -/
structure Session (ε : Type) where
  lexer : Lexer
  registry : Registry ε

namespace Session

variable {ε : Type}

/-- One thing a consumer may do. -/
inductive Step where
  /-- Take a token. -/
  | token
  /-- Take all tokens that are left. -/
  | tokens
  /-- Ask for the announced length in tokens. -/
  | hint
  /-- Take a token through the expander. -/
  | expanded
  /-- Take all tokens that are left through the expander. -/
  | expandedTokens
  /-- Put a new lexer over the source. -/
  | restart
  /-- Look at the next character or take it. -/
  | chars (x : CharStream.Step)
  /-- Ask for the announced length in characters. -/
  | charHint

/-- What a step answers. -/
inductive Answer where
  | token (t : Option (Located Token))
  | tokens (ts : List (Located Token))
  | char (c : Option (Located Char))
  | count (n : Nat)
  | done
deriving DecidableEq, Repr

/-- A session at the start of a source. -/
def ofSource (source : Source) (debug : Bool) (registry : Registry ε) : Session ε :=
  ⟨.ofSource source debug, registry⟩

/-- The source that is left. -/
def source (s : Session ε) : Source :=
  s.lexer.chars.source

/-- A step of the lexer. -/
def onLexer {α : Type} (s : Session ε) (r : Attempt Lexer α) (answer : α → Answer) :
    Attempt (Session ε) Answer :=
  (r.map answer).within fun lexer => { s with lexer }

/-- A step of the character stream below the lexer. -/
def onChars {α : Type} (s : Session ε) (r : Attempt CharStream α) (answer : α → Answer) :
    Attempt (Session ε) Answer :=
  s.onLexer (r.within fun chars => { s.lexer with chars }) answer

/-- A step through the expander. -/
def onExpander {α : Type} (r : Attempt (Expander ε) α) (answer : α → Answer) :
    Attempt (Session ε) Answer :=
  (r.map answer).within fun e => ⟨e.lexer, e.registry⟩

/-- The expander over the lexer of the session. -/
def expander (s : Session ε) : Expander ε :=
  ⟨s.lexer, s.registry⟩

/-- Takes a step. -/
def step (s : Session ε) : Step → Attempt (Session ε) Answer
  | .token => s.onLexer s.lexer.nextToken .token
  | .tokens => s.onLexer s.lexer.rest .tokens
  | .hint => (s.lexer.lengthHint.map .count, s)
  | .expanded => onExpander s.expander.nextToken .token
  | .expandedTokens => onExpander s.expander.rest .tokens
  | .restart => (.ok .done, { s with lexer := { s.lexer with chars := .ofSource s.source } })
  | .chars x => s.onChars (s.lexer.chars.step x) .char
  | .charHint => (s.lexer.chars.lengthHint.map .count, s)

-- =================================================================== runs

/-- Takes steps in order, faults included, and gives the answers with
the session that is left. -/
def run (s : Session ε) : List Step → List (Except Fault Answer) × Session ε
  | [] => ([], s)
  | step :: steps =>
    let (answer, t) := s.step step
    let (answers, u) := t.run steps
    (answer :: answers, u)

end Session

end TexMath
