import Unsugar.Json.Printer
import Unsugar.Program
import Unsugar.Scope
import Unsugar.Term.Codec

/-!
# Programs as JSON

A program is a record of its term and its literals.
-/

namespace Unsugar

namespace Literal

/-- The JSON form of a literal. -/
def toJson : Literal → Json
  | .atom name => .variant "atom" (.ofText name)
  | .text content => .variant "text" (.ofText content)

/-- The literal of a JSON value that may nest `budget` levels. -/
def ofJson? (budget : Nat) (j : Json) : Option Literal :=
  if budget = 0 then none
  else
    match j.variant? with
    | some ("atom", payload) => payload.text?.map .atom
    | some ("text", payload) => payload.text?.map .text
    | _ => none

end Literal

namespace NameKind

/-- The word for a kind. -/
def word : NameKind → String
  | .macroName => "macro"
  | .ordinary => "ordinary"

/-- The JSON form of a kind. -/
def toJson (k : NameKind) : Json := .ofText k.word

/-- The kind of a word. -/
def ofJson? (budget : Nat) (j : Json) : Option NameKind :=
  match j.bare? budget with
  | some "macro" => some .macroName
  | some "ordinary" => some .ordinary
  | _ => none

end NameKind

namespace Program

/-- The JSON form of a program. -/
def toJson (p : Program) : Json :=
  .object [("expr", p.term.toJson), ("literals", .arr (p.literals.map Literal.toJson))]

/-- The program of a JSON value that may nest `budget` levels. -/
def ofJson? (budget : Nat) (j : Json) : Option Program :=
  if budget = 0 then none
  else
    match j.record? ["expr", "literals"] with
    | some [some term, some literals] => do
      let term ← Term.ofJson? (budget - 1) term
      return ⟨term, ← literals.items? (budget - 1) (Literal.ofJson? (budget - 2))⟩
    | _ => none

/-- The program of a JSON text. -/
def parse? (text : String) : Option Program := do
  ofJson? Json.maxNesting (← Json.parse? text)

end Program

end Unsugar
