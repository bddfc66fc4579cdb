import Unsugar.Lowering.Basic
import Unsugar.Outline
import Unsugar.Source.File

/-!
# Diagnostics

Why a run failed, and what is reported about it. A name that nothing binds is shown in its source
text if there is one; every other failure is only named.
-/

namespace Unsugar

/-- Why a run failed. -/
inductive Failure where
  /-- A name that nothing binds. -/
  | unresolved (e : Unresolved)
  /-- An input stream could not be read. -/
  | stream (reason : String)
  /-- A text is not the JSON form of a tree. -/
  | tree (detail : String)
  /-- A file is missing or is not text. -/
  | unreadable (path : String)
  /-- A lowered program is not well scoped. -/
  | defect (d : Defect)
deriving DecidableEq, Repr

/-- Says why a run failed. -/
def Failure.message : Failure → String
  | .unresolved e => e.message
  | .stream reason => reason
  | .tree detail => s!"invalid syntax tree: {detail}"
  | .unreadable path => s!"path {path} could not be read"
  | .defect d => d.message

/-- A span of one of the source texts. -/
structure Label where
  file : Nat
  span : Span
deriving DecidableEq, Repr

/-- A report of an error. -/
structure Diagnostic where
  message : String
  label? : Option Label
  notes : List String
deriving DecidableEq, Repr

namespace Diagnostic

/-- What can be done about a name that nothing binds. -/
def resolutionNote : String :=
  "names must be bound by an enclosing binding, be built in, or end in the effect suffix"

/-- The report of a failure, with the place of a name in the source text if there is one. -/
def ofFailure (source? : Option Nat) (f : Failure) : Diagnostic :=
  match f, source? with
  | .unresolved e, some file => ⟨f.message, some ⟨file, e.span⟩, [resolutionNote]⟩
  | _, _ => ⟨f.message, none, []⟩

end Diagnostic

end Unsugar
