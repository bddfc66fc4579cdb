import Unsugar.Scope

/-!
# Events

What a run reports about itself while it works. Events are data: a computation collects them, and
only the outermost layer decides which of them are written. Each has a severity, the channel it is
filed under and a message.
-/

namespace Unsugar

/-- How detailed a report is: a trace is finer than a debug message. -/
inductive Severity where
  | debug
  | trace
deriving DecidableEq, Repr

/-- The word that heads a record. -/
def Severity.label : Severity → String
  | .debug => "DEBUG"
  | .trace => "TRACE"

/-- Something a run reports. -/
inductive Event where
  /-- The run starts under these options. -/
  | started (explanation : String)
  /-- A tree with so many top-level items was read. -/
  | loaded (items : Nat) (path : String)
  /-- Lowering of a file's items begins. -/
  | lowering (items file : Nat)
  /-- A binding waits for the next scope. -/
  | queued (name : String) (level : Nat) (kind : NameKind)
  /-- A scope binds a name. -/
  | opened (name : String)
  /-- All items of a block are lowered; each opened so many names. -/
  | blockDone (sizes : List Nat)
  /-- A name was taken for a built-in one. -/
  | builtinUsed (name : String) (arity : Nat)
  /-- A macro is called; the position is the callee's. -/
  | macroCall (pos args : Nat)
  /-- A program is complete. -/
  | finished (literals : Nat)
deriving DecidableEq, Repr

namespace Event

/-- How detailed an event is. -/
def severity : Event → Severity
  | .queued .. | .opened _ | .builtinUsed .. => .trace
  | .started _ | .loaded .. | .lowering .. | .blockDone _ | .macroCall .. | .finished _ => .debug

/-- The channel an event is filed under. -/
def channel : Event → String
  | .started _ => "bsg"
  | .loaded .. => "bindsugar::driver::source"
  | .lowering .. => "bindsugar::core::desugar"
  | .queued .. | .opened _ => "bindsugar::core::desugar::desugarer"
  | .blockDone _ => "bindsugar::core::desugar::block"
  | .builtinUsed .. | .macroCall .. => "bindsugar::core::desugar::call"
  | .finished _ => "bindsugar::driver::prepare"

/-- The word for a kind in messages. -/
def kindLabel : NameKind → String
  | .macroName => "Macro"
  | .ordinary => "Ordinary"

/-- A list of counts in brackets. -/
def counts (ns : List Nat) : String :=
  "[" ++ ", ".intercalate (ns.map Nat.repr) ++ "]"

/-- The message of an event. -/
def message : Event → String
  | .started explanation => explanation
  | .loaded items path => s!"loaded {items} top-level items from {path}"
  | .lowering items file => s!"desugaring {items} items of file {file}"
  | .queued name level kind => s!"pending binding {name} (level {level}, {kindLabel kind})"
  | .opened name => s!"scope opens {name}"
  | .blockDone sizes => s!"block of {sizes.length} items opens {counts sizes}"
  | .builtinUsed name arity => s!"{name} is a built-in of arity {arity}"
  | .macroCall pos args => s!"macro call at {pos} with {args} arguments"
  | .finished literals => s!"program has {literals} literals"

end Event

end Unsugar
