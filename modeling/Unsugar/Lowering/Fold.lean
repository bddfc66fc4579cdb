import Unsugar.Literal.Basic
import Unsugar.Term.Basic

/-!
# Assembling terms

How the lowered parts of a call or block are put together: tags and lists of a macro's arguments,
and the chain of abstractions that the items of a block become.
-/

namespace Unsugar

namespace Term

/-- A reserved literal. -/
def reserved (r : Reserved) : Term := .lit r.index

/-- A term under a tag. -/
def tagged (r : Reserved) (t : Term) : Term := .app (reserved r) t

/-- Terms as a list of applications that `nil` ends. -/
def list (ts : List Term) : Term :=
  ts.foldr .app (reserved .nil)

end Term

/-- A lowered item of a block, and how many names its scope opened. -/
structure BlockStep where
  opened : Nat
  term : Term
deriving DecidableEq, Repr

namespace BlockStep

/-- Items as a chain of abstractions: an item is applied to the rest of the block if the rest opened
names for it, and otherwise the rest is applied to the item. The scope of an item is one abstraction
for each name it opened, or a single one for an ignored argument. -/
def chain : List BlockStep → Term
  | [] => .reserved .nil
  | [step] => step.term.abstracted (max 1 step.opened)
  | step :: next :: rest =>
    let later := chain (next :: rest)
    -- A rest that opened no name ignores its argument, and so is the function.
    let body : Term := if next.opened = 0 then .app later step.term else .app step.term later
    body.abstracted (max 1 step.opened)

end BlockStep

end Unsugar
