/-!
# Literals

Atoms and text literals share one table of literals; they are kept apart because they are written
differently. Four atoms are reserved: the end of an argument list and the three tags that a macro
sees its arguments under.
-/

namespace Unsugar

/-- A literal of a program. -/
inductive Literal where
  | atom (name : String)
  | text (content : String)
deriving DecidableEq, Repr

/-- The characters of a literal, whichever sort it is. -/
def Literal.content : Literal → String
  | .atom s | .text s => s

/-- The atoms every literal table starts with. -/
inductive Reserved where
  /-- Ends an argument list and stands for a missing argument. -/
  | nil
  /-- Tags an argument passed by its value. -/
  | value
  /-- Tags an argument that is a binding. -/
  | binding
  /-- Tags an argument that is a call with bindings in it. -/
  | call
deriving DecidableEq, Repr

namespace Reserved

/-- The reserved atoms in the order of their places. -/
def all : List Reserved := [.nil, .value, .binding, .call]

/-- The place of a reserved atom in the literal table. -/
def index : Reserved → Nat
  | .nil => 0
  | .value => 1
  | .binding => 2
  | .call => 3

/-- The text of a reserved atom. -/
def name : Reserved → String
  | .nil => "Nil"
  | .value => "Value"
  | .binding => "Binding"
  | .call => "Call"

/-- The literal of a reserved atom. -/
def literal (r : Reserved) : Literal := .atom r.name

end Reserved

end Unsugar
