import Unsugar.Json.Token

/-!
# Reading JSON

Tokens are read one at a time. The state of reading is a stack of the arrays and objects that are
still open and what may come next; each token takes a state to the next or is refused. A text is a
JSON value if its tokens lead from the start to a complete value with nothing left open.

Reading itself has no limit on nesting.
-/

namespace Unsugar.Json

/-- An array or object that is still open, with what it holds so far, newest first. -/
inductive Frame where
  | arr (items : List Json)
  /-- The value of `key` is being read. -/
  | obj (members : List (Option String × Json)) (key : Option String)
deriving Repr

/-- What may come next. -/
inductive Expect where
  /-- A value. -/
  | value
  /-- The first item of an array, or its end. -/
  | firstItem
  /-- The first key of an object, or its end. -/
  | firstKey
  /-- The next key of an object with these members, newest first. -/
  | key (members : List (Option String × Json))
  /-- The colon after a key. -/
  | colon (members : List (Option String × Json)) (key : Option String)
  /-- Whatever may follow a complete value. -/
  | after (value : Json)
deriving Repr

/-- A state of reading. -/
structure ReadState where
  stack : List Frame
  expect : Expect
deriving Repr

namespace ReadState

/-- Nothing was read yet. -/
def start : ReadState := ⟨[], .value⟩

/-- A token at which a value starts. -/
def beginValue (stack : List Frame) : Token → Option ReadState
  | .null => some ⟨stack, .after .null⟩
  | .bool b => some ⟨stack, .after (.bool b)⟩
  | .nat n => some ⟨stack, .after (.nat n)⟩
  | .numeral s => some ⟨stack, .after (.numeral s)⟩
  | .str s => some ⟨stack, .after (.str s)⟩
  | .openArr => some ⟨.arr [] :: stack, .firstItem⟩
  | .openObj => some ⟨stack, .firstKey⟩
  | .closeArr | .closeObj | .comma | .colon => none

/-- A token after a complete value. -/
def afterValue (value : Json) : List Frame → Token → Option ReadState
  | .arr items :: stack, .comma => some ⟨.arr (value :: items) :: stack, .value⟩
  | .arr items :: stack, .closeArr => some ⟨stack, .after (.arr (value :: items).reverse)⟩
  | .obj members key :: stack, .comma => some ⟨stack, .key ((key, value) :: members)⟩
  | .obj members key :: stack, .closeObj =>
    some ⟨stack, .after (.obj ((key, value) :: members).reverse)⟩
  | _, _ => none

/-- Reads one token. -/
def step (s : ReadState) (t : Token) : Option ReadState :=
  match s.expect, t with
  | .value, t => beginValue s.stack t
  -- The frame of the array was pushed when it opened; that of a member waits for its colon.
  | .firstItem, .closeArr => some ⟨s.stack.tail, .after (.arr [])⟩
  | .firstItem, t => beginValue s.stack t
  | .firstKey, .closeObj => some ⟨s.stack, .after (.obj [])⟩
  | .firstKey, .str key => some ⟨s.stack, .colon [] key⟩
  | .key members, .str key => some ⟨s.stack, .colon members key⟩
  | .colon members key, .colon => some ⟨.obj members key :: s.stack, .value⟩
  | .after value, t => afterValue value s.stack t
  | _, _ => none

/-- The value that was read, when nothing is left open. -/
def result? (s : ReadState) : Option Json :=
  match s with
  | ⟨[], .after value⟩ => some value
  | _ => none

end ReadState

/-- The value of a sequence of tokens. -/
def ofTokens? (ts : List Token) : Option Json := do
  (← ts.foldlM ReadState.step ReadState.start).result?

/-- The value of a JSON text. -/
def parse? (text : String) : Option Json := do
  ofTokens? (← Token.scan text.toList)

end Unsugar.Json
