/-!
# JSON values

A value keeps what its text said and no more: members stand in the order they were written, also
those with the same key, and a numeral other than an unsigned integer is kept as it was spelt.

The escapes of a string can leave half of a surrogate pair on its own. Such a string is well formed
as JSON but denotes no text, and is kept as `none`.
-/

namespace Unsugar

/-- A JSON value. -/
inductive Json where
  | null
  | bool (value : Bool)
  /-- An unsigned integer. -/
  | nat (value : Nat)
  /-- A numeral with a sign, a fraction or an exponent, as it is spelt. -/
  | numeral (spelling : String)
  /-- A string; `none` if an escaped surrogate in it is not paired. -/
  | str (text? : Option String)
  | arr (items : List Json)
  | obj (members : List (Option String × Json))
deriving Repr, Inhabited

namespace Json

/-- A string value of a text. -/
def ofText (s : String) : Json := .str (some s)

/-- An object with the given members. -/
def object (members : List (String × Json)) : Json :=
  .obj (members.map fun m => (some m.1, m.2))

/-- An object with one member: how a variant of a sum is written. -/
def variant (tag : String) (payload : Json) : Json :=
  .obj [(some tag, payload)]

end Json

end Unsugar
