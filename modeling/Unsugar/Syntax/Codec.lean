import Unsugar.Json.Decode
import Unsugar.Syntax.Node

/-!
# Surface trees as JSON

A node is a record of its position and its kind, and the kind is a variant. A binding's consumer may
be left out, and is then the next scope.
-/

namespace Unsugar

namespace Consume

/-- The word for a consumer. -/
def toJson : Consume → Json
  | .scope => .ofText "scope"
  | .block => .ofText "block"

/-- The consumer of a word. -/
def ofJson? (budget : Nat) (j : Json) : Option Consume :=
  match j.bare? budget with
  | some "scope" => some .scope
  | some "block" => some .block
  | _ => none

end Consume

namespace Node

/-- A node with its kind as a variant. -/
def encode (pos : Nat) (kind : String) (payload : Json) : Json :=
  .object [("pos", .nat pos), ("kind", .variant kind payload)]

mutual

/-- The JSON form of a node. -/
def toJson : Node → Json
  | .var pos name => encode pos "var" (.ofText name)
  | .atom pos name => encode pos "atom" (.ofText name)
  | .text pos content => encode pos "str" (.ofText content)
  | .binding pos level consume name =>
    encode pos "binding"
      (.object [("level", .nat level), ("consume", consume.toJson), ("name", .ofText name)])
  | .block pos items => encode pos "block" (.arr (listToJson items))
  | .call pos callee args =>
    encode pos "call" (.object [("callee", callee.toJson), ("args", .arr (listToJson args))])

/-- The JSON forms of several nodes. -/
def listToJson : List Node → List Json
  | [] => []
  | node :: rest => node.toJson :: listToJson rest

end

/-- The binding at a position. -/
def bindingOfJson? (budget pos : Nat) (j : Json) : Option Node :=
  if budget = 0 then none
  else
    match j.record? ["level", "consume", "name"] with
    | some [some level, consume, some name] => do
      let consume ← match consume with
        | some j => Consume.ofJson? (budget - 1) j
        | none => some .scope
      return .binding pos (← level.word? 32) consume (← name.text?)
    | _ => none

/-- The call at a position. The callee is one level further in, the arguments are two. -/
def callOfJson? (budget pos : Nat) (callee arg : Json → Option Node) (j : Json) : Option Node :=
  if budget = 0 then none
  else
    match j.record? ["callee", "args"] with
    | some [some c, some args] => return .call pos (← callee c) (← args.items? (budget - 1) arg)
    | _ => none

/-- The node of a kind at a position. The kind's content may nest `budget` levels; `inner` and
`innermost` read nodes one and two levels further in. -/
def kindOfJson? (budget : Nat) (inner innermost : Json → Option Node) (pos : Nat) (tag : String)
    (payload : Json) : Option Node :=
  match tag with
  | "var" => payload.text?.map (.var pos)
  | "atom" => payload.text?.map (.atom pos)
  | "str" => payload.text?.map (.text pos)
  | "binding" => bindingOfJson? budget pos payload
  | "block" => (payload.items? budget inner).map (.block pos)
  | "call" => callOfJson? budget pos inner innermost payload
  | _ => none

/-- The node of a record of a position and a kind, whose content may nest `budget` levels. -/
def recordOfJson? (budget : Nat) (inner innermost : Json → Option Node) (j : Json) :
    Option Node :=
  match j.record? ["pos", "kind"] with
  | some [some pos, some kind] => do
    let (tag, payload) ← kind.variant?
    kindOfJson? budget inner innermost (← pos.word? 64) tag payload
  | _ => none

/-- The node of a JSON value that may nest so many levels. A node takes two of them, one for its
record and one for its kind. -/
def ofJson? : Nat → Json → Option Node
  | 0, _ | 1, _ => none
  -- A leaf fits into two levels, and content without nodes into three.
  | 2, j => recordOfJson? 0 (fun _ => none) (fun _ => none) j
  | 3, j => recordOfJson? 1 (fun _ => none) (fun _ => none) j
  | budget + 4, j => recordOfJson? (budget + 2) (ofJson? (budget + 1)) (ofJson? budget) j

/-- The items of a JSON array that may nest so many levels. -/
def listOfJson? (budget : Nat) (j : Json) : Option (List Node) :=
  j.items? budget (ofJson? (budget - 1))

/-- The top-level items of a JSON text. -/
def parseTree? (text : String) : Option (List Node) := do
  listOfJson? Json.maxNesting (← Json.parse? text)

end Node

end Unsugar
