import Unsugar.Json.Token

/-!
# Printing JSON

Both printed forms of a value are its tokens in order. The compact form has no blanks; the indented
form starts a line for each item and member, two columns further in than the brackets around it.
-/

namespace Unsugar.Json

/-- The compact form of a value. -/
def compact (j : Json) : String :=
  String.join (j.tokens.map Token.text)

namespace Token

/-- Whether a token opens an array or object. -/
def isOpen : Token → Bool
  | .openArr | .openObj => true
  | _ => false

/-- Whether a token closes an array or object. -/
def isClose : Token → Bool
  | .closeArr | .closeObj => true
  | _ => false

/-- A line break and the columns of so many open brackets. -/
def newline (depth : Nat) : String :=
  String.ofList ('\n' :: List.replicate (2 * depth) ' ')

/-- The blanks between two tokens in the indented form, the first of which leaves `depth` brackets
open. -/
def gap (depth : Nat) (first second : Token) : String :=
  if first.isOpen then (if second.isClose then "" else newline depth)
  else if second.isClose then newline (depth - 1)
  else if first = .comma then newline depth
  else if first = .colon then " "
  else ""

/-- How many brackets are open after a token. -/
def depthAfter (depth : Nat) (t : Token) : Nat :=
  if t.isOpen then depth + 1 else if t.isClose then depth - 1 else depth

/-- The parts of the indented form, with `depth` brackets open before the first token. -/
def indentedParts (depth : Nat) : List Token → List String
  | [] => []
  | [t] => [t.text]
  | t :: next :: rest =>
    let depth := t.depthAfter depth
    t.text :: gap depth t next :: indentedParts depth (next :: rest)

end Token

/-- The indented form of a value. -/
def indented (j : Json) : String :=
  String.join (Token.indentedParts 0 j.tokens)

end Unsugar.Json
