import Unsugar.Builtin
import Unsugar.Lowering.Context
import Unsugar.Lowering.Fold
import Unsugar.Lowering.Shape
import Unsugar.Program

/-!
# Lowering

A name becomes a variable, a built-in term or an effect; atoms, texts and the names of bindings
become literals; a block becomes a chain of abstractions. What a binding introduces waits in the
context until the next item of a block opens its scope.

A computation gives its result and its context side by side: after a failure the context is the one
that the failure met, with the scopes of unfinished blocks still open.
-/

namespace Unsugar

/-- A name that nothing binds, with the span it stands at. -/
structure Unresolved where
  span : Span
  name : String
deriving DecidableEq, Repr

/-- Says which name is unresolved. -/
def Unresolved.message (e : Unresolved) : String :=
  s!"unresolved name: {e.name}"

/-- A computation on the lowering context that may meet an unresolved name. -/
abbrev Lower := ExceptT Unresolved (StateM Context)

/-- How a lowered node is delivered. -/
inductive Delivery where
  /-- As an ordinary value. -/
  | plain
  /-- As an argument of a macro, which sees whether it binds. -/
  | tagged
deriving DecidableEq, Repr

namespace Delivery

/-- Delivers the value of a node. -/
def value : Delivery → Term → Term
  | .plain, t => t
  | .tagged, t => t.tagged .value

/-- Delivers the name of a binding. -/
def binding : Delivery → Term → Term
  | .plain, t => t
  | .tagged, t => t.tagged .binding

end Delivery

namespace Lower

/-- The result of a computation and the context it ends in. -/
def exec {α : Type} (x : Lower α) (c : Context) : Except Unresolved α × Context :=
  (ExceptT.run x).run c

/-- `exec` of `pure`: the context stays. -/
@[simp] theorem exec_pure {α : Type} (a : α) (c : Context) :
    (pure a : Lower α).exec c = (.ok a, c) := rfl

/-- `exec` of `throw`: the context is the one that the failure met. -/
@[simp] theorem exec_throw {α : Type} (e : Unresolved) (c : Context) :
    (throw e : Lower α).exec c = (.error e, c) := rfl

@[simp] theorem exec_get (c : Context) : (get : Lower Context).exec c = (.ok c, c) := rfl

@[simp] theorem exec_modify (f : Context → Context) (c : Context) :
    (modify f : Lower Unit).exec c = (.ok (), f c) := rfl

@[simp] theorem exec_modifyGet {α : Type} (f : Context → α × Context) (c : Context) :
    (modifyGet f : Lower α).exec c = (.ok (f c).1, (f c).2) := rfl

/-- `exec` of `>>=`: it goes on from the context that the first part ends in, and stops where that
    fails. -/
theorem exec_bind {α β : Type} (x : Lower α) (f : α → Lower β) (c : Context) :
    (x >>= f).exec c =
      match x.exec c with
      | (.ok a, c') => (f a).exec c'
      | (.error e, c') => (.error e, c') := by
  show (ExceptT.run (x >>= f)).run c = _
  simp only [ExceptT.run_bind, StateT.run_bind, exec]
  rcases (ExceptT.run x).run c with ⟨_ | _, _⟩ <;> rfl

/-- Reports an event. -/
def note (e : Event) : Lower Unit := modify (·.note e)

/-- Reports an event if a condition holds. -/
def noteIf (condition : Bool) (e : Event) : Lower Unit :=
  if condition then note e else pure ()

/-- The literal term of an interned literal. -/
def literal (l : Literal) : Lower Term :=
  return .lit (← modifyGet (·.intern l))

/-- The literal term of a queued binding's name. -/
def queue (b : Pending) : Lower Term :=
  return .lit (← modifyGet (·.record b))

/-- The meaning of a name: a variable in scope, else a built-in term, else an effect. -/
def name (span : Span) (name : String) : Lower Term := do
  let c ← get
  match c.scope.resolve? name with
  | some i => return .var i
  | none =>
    match Builtin.ofName? name with
    | some b =>
      note (.builtinUsed name b.arity)
      return b.term
    | none =>
      if c.isEffect name then
        return .effect (← modifyGet (·.intern (.atom name)))
      else
        throw ⟨span, name⟩

/-- Ends a block: its scopes close at `depth`, the copies of its higher-level bindings become the
queue, and what its last item queued is dropped. -/
def closeBlock (depth : Nat) (steps : List BlockStep) (deferred : List Pending) : Lower Term := do
  note (.blockDone (steps.map BlockStep.opened))
  modify fun c => (c.setPending deferred).truncate depth
  return BlockStep.chain steps

mutual

/-- Lowers a node. If the node is a binding, it introduces a name of the given kind. -/
def node (delivery : Delivery) (kind : NameKind) : Node → Lower Term
  | .var pos name => return delivery.value (← Lower.name (Node.var pos name).span name)
  | .atom _ name => return delivery.value (← literal (.atom name))
  | .text _ content => return delivery.value (← literal (.text content))
  | .binding _ level consume name => return delivery.binding (← queue ⟨level, consume, name, kind⟩)
  | .block _ items => block items
  | .call pos callee args => do
    let scope := (← get).scope
    if delivery = .tagged && scope.hasBindings (.call pos callee args) then
      -- The macro is to see the bindings, so the call stays structure and they stay queued.
      let head ← node .tagged (Node.definitionKind args) callee
      let args ← arguments .tagged args
      return .app (head.tagged .call) (Term.list args)
    else
      let isMacro := scope.isMacro callee
      -- Whatever is queued belongs to the surroundings, and is kept out of blocks in this call.
      let saved ← modifyGet Context.takePending
      let fn ← node .plain (Node.definitionKind args) callee
      noteIf isMacro (.macroCall callee.pos args.length)
      let values ← arguments (if isMacro then .tagged else .plain) args
      modify (·.restorePending saved)
      -- A call without arguments is a call with `Nil`.
      return delivery.value (fn.appAll (if args.isEmpty then [.reserved .nil] else values))

/-- Lowers arguments from left to right. -/
def arguments (delivery : Delivery) : List Node → Lower (List Term)
  | [] => return []
  | arg :: rest => do
    let t ← node delivery .ordinary arg
    return t :: (← arguments delivery rest)

/-- Lowers the items of a block, each in the scope that the one before it asked for. Gives the steps
and what is deferred to the scope around the block. -/
def items : List Node → Lower (List BlockStep × List Pending)
  | [] => return ([], [])
  | item :: rest => do
    -- What is queued by now was queued before this item, which is the first to see it.
    let opened ← modifyGet Context.openScope
    let t ← node .plain .ordinary item
    let (steps, deferred) ← items rest
    return (⟨opened.length, t⟩ :: steps, opened.filterMap Pending.shadow? ++ deferred)

/-- Lowers a block. A block without items is the block of the atom `Nil`. -/
def block : List Node → Lower Term
  | [] => do
    let depth := (← get).scope.depth
    let opened ← modifyGet Context.openScope
    let t ← literal Reserved.nil.literal
    closeBlock depth [⟨opened.length, t⟩] (opened.filterMap Pending.shadow?)
  | item :: rest => do
    let depth := (← get).scope.depth
    let opened ← modifyGet Context.openScope
    let t ← node .plain .ordinary item
    let (steps, deferred) ← items rest
    closeBlock depth (⟨opened.length, t⟩ :: steps) (opened.filterMap Pending.shadow? ++ deferred)

end

/-- Lowers a node as an ordinary value. -/
def value (n : Node) : Lower Term := node .plain .ordinary n

/-- Lowers a node as an argument of a macro. -/
def wrapped (n : Node) : Lower Term := node .tagged .ordinary n

end Lower

namespace Node

/-- Lowers the top-level items of a file. Gives the program, or the first name that nothing binds,
and the context it ended in. -/
def lowerAll (settings : Settings) (file : Nat) (items : List Node) :
    Except Unresolved Program × Context :=
  let start := (Context.initial settings).note (.lowering items.length file)
  let (result, c) := (Lower.block items).exec start
  (result.map fun t => ⟨t, c.literals.toList⟩, c)

end Node

end Unsugar
