import Unsugar.Proofs.Run

/-!
# Lowering with names

The same traversal as lowering, except that names stay: a name in scope is itself, and every
abstraction carries the name of the scope entry it was opened for, or none if that entry is a
placeholder. What a named term means is said apart from scopes, by the textbook step to indices
(`NamedTerm.toTerm?`): a name becomes the distance to the nearest binder that carries it.
-/

namespace Unsugar

/-- A lambda term with names. -/
inductive NamedTerm where
  /-- A name that a binder around it carries. -/
  | name (name : String)
  /-- A literal, by its place in the literal table. -/
  | lit (index : Nat)
  /-- An ambient effect, by the place of its name in the literal table. -/
  | effect (index : Nat)
  /-- A built-in operation, which is closed. -/
  | builtin (b : Builtin)
  /-- An abstraction; without a name nothing refers to it. -/
  | abs (name? : Option String) (body : NamedTerm)
  /-- An application. -/
  | app (fn arg : NamedTerm)
deriving DecidableEq, Repr

namespace NamedTerm

/-- The nameless form of a term under binders, innermost first. A name becomes its distance to the
    nearest binder that carries it; binders without a name are counted but never meant. -/
def toTerm? (binders : List (Option String)) : NamedTerm → Option Term
  | .name x => (binders.findIdx? (· = some x)).map .var
  | .lit i => some (.lit i)
  | .effect i => some (.effect i)
  | .builtin b => some b.term
  | .abs x? body => (body.toTerm? (x? :: binders)).map .abs
  | .app fn arg => do return .app (← fn.toTerm? binders) (← arg.toTerm? binders)

/-! ## Assembling named terms -/

/-- A reserved literal. -/
def reserved (r : Reserved) : NamedTerm := .lit r.index

/-- A term under a tag. -/
def tagged (r : Reserved) (t : NamedTerm) : NamedTerm := .app (reserved r) t

/-- Terms as a list of applications that `nil` ends. -/
def list (ts : List NamedTerm) : NamedTerm :=
  ts.foldr .app (reserved .nil)

/-- Applies a term to arguments from left to right. -/
def appAll (fn : NamedTerm) (args : List NamedTerm) : NamedTerm :=
  args.foldl .app fn

/-- A term under an abstraction for each binder, the first outermost. -/
def abstracted (binders : List (Option String)) (t : NamedTerm) : NamedTerm :=
  binders.foldr .abs t

end NamedTerm

/-- A lowered item of a block, and the names its scope opened. -/
structure NamedStep where
  opened : List String
  term : NamedTerm
deriving DecidableEq, Repr

namespace NamedStep

/-- The binders of an item's scope, outermost first; a scope that opens no name has one binder without
    a name. -/
def binders (step : NamedStep) : List (Option String) :=
  if step.opened.isEmpty then [none] else step.opened.map some

/-- Items as a chain of abstractions. -/
def chain : List NamedStep → NamedTerm
  | [] => .reserved .nil
  | [step] => step.term.abstracted step.binders
  | step :: next :: rest =>
    let later := chain (next :: rest)
    let body : NamedTerm :=
      if next.opened.isEmpty then .app later step.term else .app step.term later
    body.abstracted step.binders

end NamedStep

namespace Delivery

/-- Delivers the value of a node. -/
def namedValue : Delivery → NamedTerm → NamedTerm
  | .plain, t => t
  | .tagged, t => t.tagged .value

/-- Delivers the name of a binding. -/
def namedBinding : Delivery → NamedTerm → NamedTerm
  | .plain, t => t
  | .tagged, t => t.tagged .binding

end Delivery

/-! ## The named pass -/

namespace LowerNamed

/-- The literal term of an interned literal. -/
def literal (l : Literal) : Lower NamedTerm :=
  return .lit (← modifyGet (·.intern l))

/-- The literal term of a queued binding's name. -/
def queue (b : Pending) : Lower NamedTerm :=
  return .lit (← modifyGet (·.record b))

/-- The meaning of a name: itself if it is in scope, else a built-in operation, else an effect. -/
def name (span : Span) (name : String) : Lower NamedTerm := do
  let c ← get
  if (c.scope.resolve? name).isSome then
    return .name name
  else
    match Builtin.ofName? name with
    | some b =>
      Lower.note (.builtinUsed name b.arity)
      return .builtin b
    | none =>
      if c.isEffect name then
        return .effect (← modifyGet (·.intern (.atom name)))
      else
        throw ⟨span, name⟩

/-- Ends a block. -/
def closeBlock (depth : Nat) (steps : List NamedStep) (deferred : List Pending) :
    Lower NamedTerm := do
  Lower.note (.blockDone (steps.map (·.opened.length)))
  modify fun c => (c.setPending deferred).truncate depth
  return NamedStep.chain steps

mutual

/-- Lowers a node. If the node is a binding, it introduces a name of the given kind. -/
def node (delivery : Delivery) (kind : NameKind) : Node → Lower NamedTerm
  | .var pos name =>
    return delivery.namedValue (← LowerNamed.name (Node.var pos name).span name)
  | .atom _ name => return delivery.namedValue (← literal (.atom name))
  | .text _ content => return delivery.namedValue (← literal (.text content))
  | .binding _ level consume name =>
    return delivery.namedBinding (← queue ⟨level, consume, name, kind⟩)
  | .block _ items => block items
  | .call pos callee args => do
    let scope := (← get).scope
    if delivery = .tagged && scope.hasBindings (.call pos callee args) then
      let head ← node .tagged (Node.definitionKind args) callee
      let args ← arguments .tagged args
      return .app (head.tagged .call) (NamedTerm.list args)
    else
      let isMacro := scope.isMacro callee
      let saved ← modifyGet Context.takePending
      let fn ← node .plain (Node.definitionKind args) callee
      Lower.noteIf isMacro (.macroCall callee.pos args.length)
      let values ← arguments (if isMacro then .tagged else .plain) args
      modify (·.restorePending saved)
      return delivery.namedValue (fn.appAll (if args.isEmpty then [.reserved .nil] else values))

/-- Lowers arguments from left to right. -/
def arguments (delivery : Delivery) : List Node → Lower (List NamedTerm)
  | [] => return []
  | arg :: rest => do
    let t ← node delivery .ordinary arg
    return t :: (← arguments delivery rest)

/-- Lowers the items of a block, each in the scope that the one before it asked for. -/
def items : List Node → Lower (List NamedStep × List Pending)
  | [] => return ([], [])
  | item :: rest => do
    let opened ← modifyGet Context.openScope
    let t ← node .plain .ordinary item
    let (steps, deferred) ← items rest
    return (⟨opened.map Pending.name, t⟩ :: steps,
      opened.filterMap Pending.shadow? ++ deferred)

/-- Lowers a block. A block without items is the block of the atom `Nil`. -/
def block : List Node → Lower NamedTerm
  | [] => do
    let depth := (← get).scope.depth
    let opened ← modifyGet Context.openScope
    let t ← literal Reserved.nil.literal
    closeBlock depth [⟨opened.map Pending.name, t⟩] (opened.filterMap Pending.shadow?)
  | item :: rest => do
    let depth := (← get).scope.depth
    let opened ← modifyGet Context.openScope
    let t ← node .plain .ordinary item
    let (steps, deferred) ← items rest
    closeBlock depth (⟨opened.map Pending.name, t⟩ :: steps)
      (opened.filterMap Pending.shadow? ++ deferred)

end

/-- `block` is `items` of `itemsOrNil` and then `closeBlock`, as in the pass to indices. -/
theorem block_eq (ns : List Node) :
    block ns = (do
      let c ← get
      let (steps, deferred) ← items (Lower.itemsOrNil ns)
      closeBlock c.scope.depth steps deferred) := by
  cases ns with
  | nil =>
    simp [block, Lower.itemsOrNil, items, node, Delivery.namedValue, Reserved.literal]
  | cons item rest => simp [block, Lower.itemsOrNil, items]

end LowerNamed

/-- Lowers the top-level items of a file with names. Gives the term and the literals met on the way,
    or the first name that nothing binds. -/
def Node.lowerAllNamed (settings : Settings) (file : Nat) (items : List Node) :
    Except Unresolved (NamedTerm × List Literal) :=
  let (result, c) := (LowerNamed.block items).exec (start settings file items)
  result.map fun t => (t, c.literals.toList)

end Unsugar
