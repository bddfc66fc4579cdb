/-!
# Terms

The nameless lambda terms that programs are lowered to. A variable is an index counted from the
innermost binder; literals and effects are indices into a literal table kept beside the term.
-/

namespace Unsugar

/-- A nameless lambda term. -/
inductive Term where
  /-- A variable, counted from the innermost binder. -/
  | var (index : Nat)
  /-- A literal, by its place in the literal table. -/
  | lit (index : Nat)
  /-- An ambient effect, by the place of its name in the literal table. -/
  | effect (index : Nat)
  /-- An abstraction. -/
  | abs (body : Term)
  /-- A self-referential abstraction: index 0 is its argument and index 1 the abstraction. -/
  | fix (body : Term)
  /-- An application. -/
  | app (fn arg : Term)
  /-- The type of a value. -/
  | typeOf (value : Term)
  /-- Splits a compound value, or goes on otherwise. -/
  | unpack (value onCompound otherwise : Term)
  /-- Runs a body under an effect handler. -/
  | handle (body handler : Term)
  /-- Compares two values and goes on with one of two others. -/
  | compare (left right ifEqual otherwise : Term)
deriving DecidableEq, Repr, Inhabited

namespace Term

/-- Whether a term is a plain abstraction. -/
def isAbs : Term → Bool
  | .abs _ => true
  | _ => false

/-- The body of an abstraction of either sort. -/
def body? : Term → Option Term
  | .abs b | .fix b => some b
  | _ => none

/-- How many binders stand between a term and its immediate subterms. -/
def binders : Term → Nat
  | .abs _ => 1
  | .fix _ => 2
  | _ => 0

/-- The immediate subterms in order. -/
def children : Term → List Term
  | .var _ | .lit _ | .effect _ => []
  | .abs b | .fix b | .typeOf b => [b]
  | .app f x => [f, x]
  | .unpack v c o => [v, c, o]
  | .handle b h => [b, h]
  | .compare l r e o => [l, r, e, o]

/-- A term under `n` abstractions. -/
def abstracted : Nat → Term → Term
  | 0, t => t
  | n + 1, t => .abs (t.abstracted n)

/-- Applies a term to arguments from left to right. -/
def appAll (fn : Term) (args : List Term) : Term :=
  args.foldl .app fn

end Term

end Unsugar
