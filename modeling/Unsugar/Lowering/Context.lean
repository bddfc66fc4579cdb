import Unsugar.Event
import Unsugar.Literal.Table
import Unsugar.Syntax.Node

/-!
# Lowering contexts

What lowering carries along: the names in scope, the bindings that wait for the next scope to open,
and the literals met so far. Opening a scope turns every waiting binding into an entry of the scope;
a binding of a higher level leaves a copy behind, one level lower, for the scope around the block.

A context also keeps the events of the run, newest first. Nothing in lowering looks at them.
-/

namespace Unsugar

/-- Names around a program, outermost first, and the suffix that marks effects. -/
structure Settings where
  prelude : List (NameKind × String) := []
  effectSuffix : String := "!"
deriving DecidableEq, Repr

/-- A binding that was seen and waits for a scope. -/
structure Pending where
  /-- How many scopes the name is still to be visible across. -/
  level : Nat
  consume : Consume
  name : String
  kind : NameKind
deriving DecidableEq, Repr

namespace Pending

/-- The copy a binding leaves for the next scope out. -/
def shadow? (b : Pending) : Option Pending :=
  if 1 < b.level then some { b with level := b.level - 1 } else none

/-- The scope entry a binding becomes. -/
def entry (b : Pending) : ScopeEntry := .named b.kind b.name

end Pending

/-- The state of lowering. -/
structure Context where
  scope : Scope
  /-- Bindings that wait for the next scope, first come first. -/
  pending : List Pending
  literals : LiteralTable
  effectSuffix : String
  /-- What happened so far, newest first. -/
  events : List Event
deriving DecidableEq, Repr

namespace Context

/-- The context at the start of a program: its prelude is in scope and only the reserved literals
are known. -/
def initial (settings : Settings) : Context where
  scope := settings.prelude.foldl (fun s p => s.push (.named p.1 p.2)) .empty
  pending := []
  literals := .reserved
  effectSuffix := settings.effectSuffix
  events := []

/-- Reports an event. -/
def note (c : Context) (e : Event) : Context := { c with events := e :: c.events }

/-- Whether a name stands for an effect: it ends in the effect suffix and has more to it. -/
def isEffect (c : Context) (name : String) : Bool :=
  !c.effectSuffix.isEmpty && c.effectSuffix.length < name.length &&
    c.effectSuffix.toList.isSuffixOf name.toList

/-- The place of a literal, added when it is new. -/
def intern (c : Context) (l : Literal) : Nat × Context :=
  let (i, table) := c.literals.intern l
  (i, { c with literals := table })

/-- Queues a binding for the next scope and gives the place of its name. -/
def record (c : Context) (b : Pending) : Nat × Context :=
  let c := c.note (.queued b.name b.level b.kind)
  -- The name is also data, which macros are handed in the place of the binding.
  { c with pending := c.pending ++ [b] }.intern (.atom b.name)

/-- Empties the queue. -/
def takePending (c : Context) : List Pending × Context :=
  (c.pending, { c with pending := [] })

/-- Puts bindings that were taken back in front of those queued since. -/
def restorePending (c : Context) (saved : List Pending) : Context :=
  { c with pending := saved ++ c.pending }

/-- Replaces the queue. -/
def setPending (c : Context) (pending : List Pending) : Context :=
  { c with pending }

/-- Drops inner scope entries until at most `depth` are left. -/
def truncate (c : Context) (depth : Nat) : Context :=
  { c with scope := c.scope.truncate depth }

/-- Brings one queued binding into scope. -/
def bindName (c : Context) (b : Pending) : Context :=
  { c with scope := c.scope.push b.entry, events := .opened b.name :: c.events }

/-- Opens a scope for the queued bindings, which it returns. Without any the scope has one entry
without a name, so that every scope opens at least one abstraction. -/
def openScope (c : Context) : List Pending × Context :=
  match c.pending with
  | [] => ([], { c with scope := c.scope.push .placeholder })
  | queue => (queue, queue.foldl bindName { c with pending := [] })

end Context

end Unsugar
