/-
What may be offered as the name of a macro. Only a string that is not
empty names a macro; anything else can be written into a definition,
and the refusal of the definition displays it.

A display fails where a number in it has too many digits.
-/
import TexMath.Text.Digit
import TexMath.Text.Quoted

namespace TexMath.Macro

/-- A value offered as a macro name. -/
inductive Datum where
  | null
  | bool (b : Bool)
  | int (n : Int)
  | string (s : String)
  | list (items : List Datum)
  /-- Any other value, with the display that it has. -/
  | other (shown : Except Fault String)
deriving Inhabited

namespace Datum

/-- The name a value makes, if it is one: a string that is not empty. -/
def name? : Datum → Option String
  | string s => if s = "" then none else some s
  | _ => none

mutual

/-- The value in words. -/
def display : Datum → Except Fault String
  | null => .ok "None"
  | bool true => .ok "True"
  | bool false => .ok "False"
  | int n => Text.decimal n
  | string s => .ok (Text.quoted s)
  | list items => (displayEach items).map fun shown => "[" ++ ", ".intercalate shown ++ "]"
  | other shown => shown

/-- The values in words, one by one. -/
def displayEach : List Datum → Except Fault (List String)
  | [] => .ok []
  | d :: ds =>
    match display d, displayEach ds with
    | .error fault, _ => .error fault
    | .ok _, .error fault => .error fault
    | .ok shown, .ok later => .ok (shown :: later)

end

/-- Several values in words, as a tuple: a single one is followed by a
comma. -/
def displayTuple : List Datum → Except Fault String
  | [d] => d.display.map fun shown => "(" ++ shown ++ ",)"
  | ds => (displayEach ds).map fun shown => "(" ++ ", ".intercalate shown ++ ")"

end Datum

/-- Names as they are given to a definition. -/
inductive Given where
  /-- A string that stands alone. -/
  | single (name : String)
  | several (values : List Datum)
deriving Inhabited

/-- The values that are given: a string that stands alone is the only one,
and is not taken for its characters. -/
def Given.values : Given → List Datum
  | single name => [.string name]
  | several values => values

end TexMath.Macro
