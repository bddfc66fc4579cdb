import Unsugar.Json.Decode
import Unsugar.Term.Basic

/-!
# Terms as JSON

A term is a variant: of an index, of a term, or of an array of terms.
-/

namespace Unsugar.Term

/-- The JSON form of a term. -/
def toJson : Term → Json
  | .var i => .variant "var" (.nat i)
  | .lit i => .variant "lit" (.nat i)
  | .effect i => .variant "effect" (.nat i)
  | .abs b => .variant "abs" b.toJson
  | .fix b => .variant "rec" b.toJson
  | .app f x => .variant "app" (.arr [f.toJson, x.toJson])
  | .typeOf v => .variant "type_of" v.toJson
  | .unpack v c o => .variant "unpack" (.arr [v.toJson, c.toJson, o.toJson])
  | .handle b h => .variant "handle" (.arr [b.toJson, h.toJson])
  | .compare l r e o => .variant "compare" (.arr [l.toJson, r.toJson, e.toJson, o.toJson])

/-- The form with several operands that a tag stands for. -/
def ofOperands? : String → List Term → Option Term
  | "app", [f, x] => some (.app f x)
  | "unpack", [v, c, o] => some (.unpack v c o)
  | "handle", [b, h] => some (.handle b h)
  | "compare", [l, r, e, o] => some (.compare l r e o)
  | _, _ => none

/-- The term of a variant whose content may nest `budget` levels. `inner` and `innermost` read terms
that are the content, and that stand in an array. -/
def variantOfJson? (budget : Nat) (inner innermost : Json → Option Term) (tag : String)
    (payload : Json) : Option Term :=
  match tag with
  | "var" => (payload.word? 64).map .var
  | "lit" => (payload.word? 64).map .lit
  | "effect" => (payload.word? 64).map .effect
  | "abs" => (inner payload).map .abs
  | "rec" => (inner payload).map .fix
  | "type_of" => (inner payload).map .typeOf
  | tag => (payload.items? budget innermost).bind (ofOperands? tag)

/-- The term of a JSON value that may nest so many levels, one of which its variant takes. -/
def ofJson? : Nat → Json → Option Term
  | 0, _ => none
  | 1, j => do
    let (tag, payload) ← j.variant?
    variantOfJson? 0 (fun _ => none) (fun _ => none) tag payload
  | budget + 2, j => do
    let (tag, payload) ← j.variant?
    variantOfJson? (budget + 1) (ofJson? (budget + 1)) (ofJson? budget) tag payload

end Unsugar.Term
