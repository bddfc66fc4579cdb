import Unsugar.Literal.Basic
import Unsugar.Term.Free

/-!
# Programs

A program is a term with the table of the literals it mentions. Its term should be an abstraction
that reaches no further out than the names around the program; `Term.check` says whether a term is.
-/

namespace Unsugar

/-- A term and the literals its indices refer to. -/
structure Program where
  term : Term
  literals : List Literal
deriving DecidableEq, Repr

namespace Program

/-- The body under the outermost abstraction. -/
def body? (p : Program) : Option Term :=
  match p.term with
  | .abs b => some b
  | _ => none

/-- The text of the literal at a place. -/
def literalText? (p : Program) (i : Nat) : Option String :=
  p.literals[i]?.map Literal.content

/-- The first place of a literal with a given text, whichever sort it is. -/
def literalIndex? (p : Program) (text : String) : Option Nat :=
  p.literals.findIdx? (·.content = text)

end Program

/-- Why a term is no program body under a number of names. -/
inductive Defect where
  | notAbstraction (term : Term)
  | unbound (index names : Nat)
deriving DecidableEq, Repr

/-- Accepts an abstraction whose free indices are all below `names`. -/
def Term.check (names : Nat) (t : Term) : Except Defect Unit :=
  if t.isAbs then
    match t.maxFree with
    | some i => if i < names then .ok () else .error (.unbound i names)
    | none => .ok ()
  else
    .error (.notAbstraction t)

end Unsugar
