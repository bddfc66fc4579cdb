import Unsugar.Json.Reader

/-!
# Decoding JSON

How the parts of a data type are found in a JSON value. A record is an object, whose members may
come in any order and beside others that are passed over, or an array of all its fields; a variant
of a sum is an object with one member; a variant without content may also be its bare name.

A decoder is given the number of nested arrays and objects it may still enter. Values it passes over
do not count.
-/

namespace Unsugar.Json

/-- How many arrays and objects a decoded text may nest. -/
def maxNesting : Nat := 127

/-- An unsigned integer of a number of bits. -/
def word? (bits : Nat) : Json → Option Nat
  | .nat n => if n < Nat.pow 2 bits then some n else none
  | _ => none

/-- A text. -/
def text? : Json → Option String
  | .str s => s
  | _ => none

/-- The value of a key: `some none` without it, and `none` if it occurs twice. -/
def lookup? (key : String) (members : List (String × Json)) : Option (Option Json) :=
  match members.filter (·.1 = key) with
  | [] => some none
  | [m] => some (some m.2)
  | _ => none

/-- The members of an object whose keys are all texts. -/
def textMembers? (members : List (Option String × Json)) : Option (List (String × Json)) :=
  members.mapM fun m => m.1.map (·, m.2)

/-- The fields of a record, each `none` if it is missing. -/
def record? (fields : List String) : Json → Option (List (Option Json))
  | .obj members => do
    let members ← textMembers? members
    fields.mapM (lookup? · members)
  -- In an array every field has its place, so none can be left out.
  | .arr items => if items.length = fields.length then some (items.map some) else none
  | _ => none

/-- The tag and content of a variant. -/
def variant? : Json → Option (String × Json)
  | .obj [(some tag, payload)] => some (tag, payload)
  | _ => none

/-- The name of a variant without content. -/
def bare? (budget : Nat) : Json → Option String
  | .str s => s
  -- The object has to be entered, unlike the bare word.
  | .obj [(some tag, .null)] => if budget = 0 then none else some tag
  | _ => none

/-- The items of an array, if there is room to enter it. -/
def items? {α : Type} (budget : Nat) (decode : Json → Option α) : Json → Option (List α)
  | .arr items => if budget = 0 then none else items.mapM decode
  | _ => none

end Unsugar.Json
