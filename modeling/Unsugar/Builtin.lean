import Unsugar.Term.Basic

/-!
# Built-in names

Names that mean a fixed closed term wherever no binding is in scope for them.
-/

namespace Unsugar

/-- A built-in operation. -/
inductive Builtin where
  /-- Hands a defined value to a continuation. -/
  | define
  /-- An anonymous function. -/
  | lambda
  /-- A recursive anonymous function. -/
  | recLambda
  | typeOf
  | unpack
  | handle
  | compare
deriving DecidableEq, Repr

namespace Builtin

/-- The built-in operation of a name. -/
def ofName? : String → Option Builtin
  | "=" => some .define
  | "=>" => some .lambda
  | "~>" => some .recLambda
  | "type" => some .typeOf
  | "__unpack" => some .unpack
  | "__handle" => some .handle
  | "__compare" => some .compare
  | _ => none

/-- How many arguments an operation takes. -/
def arity : Builtin → Nat
  | .typeOf => 1
  | .lambda | .recLambda | .handle => 2
  | .define | .unpack => 3
  | .compare => 4

/-- The body of an operation, under one binder for each argument; the last argument is index 0.

A definition takes a pattern, a value and a continuation. If the pattern is compound, the
continuation gets the value made recursive; otherwise it gets the value as it is. -/
def body : Builtin → Term
  | .define =>
    .unpack (.var 2)
      (.abs (.abs (.app (.var 2) (.fix (.app (.app (.var 5) (.var 1)) (.var 0))))))
      (.abs (.app (.var 1) (.var 2)))
  | .lambda => .var 0
  | .recLambda => .fix (.app (.app (.var 2) (.var 1)) (.var 0))
  | .typeOf => .typeOf (.var 0)
  | .unpack => .unpack (.var 2) (.var 1) (.var 0)
  | .handle => .handle (.var 1) (.var 0)
  | .compare => .compare (.var 3) (.var 2) (.var 1) (.var 0)

/-- The closed term an operation means. -/
def term (b : Builtin) : Term :=
  b.body.abstracted b.arity

end Builtin

end Unsugar
