import Unsugar.Scope
import Unsugar.Syntax.Node

/-!
# What syntax shows before it is lowered

A macro sees the bindings in its arguments, so whether an argument contains one is decided from the
tree and the scope alone, before anything is lowered.
-/

namespace Unsugar

/-- Whether a node is a binding meant for a block. -/
def Node.isBlockBinding : Node → Bool
  | .binding _ _ .block _ => true
  | _ => false

/-- The kind of name that a binding at the head of a definition introduces: a definition that takes
a binding in order to hand it on to a block sees bindings, and so is a macro. -/
def Node.definitionKind (params : List Node) : NameKind :=
  if params.any Node.isBlockBinding then .macroName else .ordinary

namespace Scope

/-- Whether a callee is a name bound as a macro. -/
def isMacro (s : Scope) : Node → Bool
  | .var _ name => s.classify? name = some .macroName
  | _ => false

mutual

/-- Whether a node is seen by a macro as structure: it is a binding, or an ordinary call with such a
node as its callee or among its arguments. -/
def hasBindings (s : Scope) : Node → Bool
  | .binding .. => true
  | .var .. | .atom .. | .text .. | .block .. => false
  -- A call of a macro is its value, whatever bindings it is given.
  | .call _ callee args => !s.isMacro callee && (s.hasBindings callee || s.anyHasBindings args)

/-- Whether one of several nodes is seen by a macro as structure. -/
def anyHasBindings (s : Scope) : List Node → Bool
  | [] => false
  | node :: rest => s.hasBindings node || s.anyHasBindings rest

end

end Scope

end Unsugar
