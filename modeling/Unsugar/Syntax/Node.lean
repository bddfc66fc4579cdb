import Unsugar.Source.Span

/-!
# Surface syntax

The tree a program is given as. Names are introduced by explicit bindings, which may stand anywhere
an expression may; a block is a sequence of items, and a call applies a callee to arguments. Every
node knows the byte position it was read at, which only error reports look at.
-/

namespace Unsugar

/-- What a binding is meant to be consumed by: the next scope, or a block handed to a definition. -/
inductive Consume where
  | scope
  | block
deriving DecidableEq, Repr

/-- A node of the surface tree. -/
inductive Node where
  /-- A use of a name. -/
  | var (pos : Nat) (name : String)
  /-- An atom. -/
  | atom (pos : Nat) (name : String)
  /-- A text literal. -/
  | text (pos : Nat) (content : String)
  /-- A binding, visible across `level` enclosing scopes. -/
  | binding (pos : Nat) (level : Nat) (consume : Consume) (name : String)
  /-- A sequence of items. -/
  | block (pos : Nat) (items : List Node)
  /-- A call. -/
  | call (pos : Nat) (callee : Node) (args : List Node)
deriving Repr

namespace Node

/-- The byte position a node was read at. -/
def pos : Node → Nat
  | .var p _ | .atom p _ | .text p _ | .binding p _ _ _ | .block p _ | .call p _ _ => p

/-- The name a binding introduces. -/
def bindingName? : Node → Option String
  | .binding _ _ _ name => some name
  | _ => none

/-- How many bytes of source a node is taken to cover: a text literal has its two quotes, a binding
one mark per level, and of a block or call only the first byte is marked. -/
def width : Node → Nat
  | .var _ name | .atom _ name => name.utf8ByteSize
  | .text _ content => content.utf8ByteSize + 2
  | .binding _ level _ name => level + name.utf8ByteSize
  | .block _ _ | .call _ _ _ => 1

/-- The source span of a node. -/
def span (node : Node) : Span :=
  .ofWidth node.pos node.width

/-! ## Short forms -/

/-- A binding of the next scope only. -/
def bind (pos : Nat) (name : String) : Node :=
  .binding pos 1 .scope name

/-- A binding visible across `level` scopes. -/
def bindLevel (pos level : Nat) (name : String) : Node :=
  .binding pos level .scope name

/-- A binding handed on to a block. -/
def bindBlock (pos : Nat) (name : String) : Node :=
  .binding pos 1 .block name

/-- A call of a named callee. -/
def callNamed (pos : Nat) (name : String) (args : List Node) : Node :=
  .call pos (.var pos name) args

end Node

end Unsugar
