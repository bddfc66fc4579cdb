import Unsugar.Decimal.Round

/-!
# Timings

How long each phase of a run took. Phases keep the order in which they were first recorded.
-/

namespace Unsugar

open Decimal

/-- A length of time, in whole seconds and nanoseconds. -/
structure Duration where
  seconds : Nat
  nanos : Nat
deriving DecidableEq, Repr

namespace Duration

/-- A duration of so many nanoseconds. -/
def ofNanos (n : Nat) : Duration := ⟨n / Nat.pow 10 9, n % Nat.pow 10 9⟩

/-- A duration in seconds as a double precision float has it: seconds and the quotient of the
nanoseconds are rounded first, then their sum. -/
def toDouble (d : Duration) : Ratio :=
  ((Ratio.toDouble ⟨d.seconds, 1⟩).add (Ratio.toDouble ⟨d.nanos, Nat.pow 10 9⟩)).toDouble

/-- The seconds with nine places, at least fourteen columns wide, and their unit. -/
def display (d : Duration) : String :=
  let number := d.toDouble.fixed 9
  "".pushn ' ' (14 - number.length) ++ number ++ "s"

end Duration

/-- The phases of a run with their durations. -/
structure Timings where
  entries : List (String × Duration)
deriving DecidableEq, Repr

namespace Timings

/-- No phase was recorded. -/
def empty : Timings := ⟨[]⟩

/-- Whether no phase was recorded. -/
def isEmpty (t : Timings) : Bool := t.entries.isEmpty

/-- The phases in the order in which they were first recorded. -/
def phases (t : Timings) : List String := t.entries.map (·.1)

/-- The duration of a phase. -/
def get? (t : Timings) (phase : String) : Option Duration :=
  (t.entries.find? (·.1 = phase)).map (·.2)

/-- Records a phase. One that was recorded before keeps its place. -/
def record (t : Timings) (phase : String) (d : Duration) : Timings :=
  if t.entries.any (·.1 = phase) then
    ⟨t.entries.map fun e => if e.1 = phase then (phase, d) else e⟩
  else
    ⟨t.entries ++ [(phase, d)]⟩

/-- A line for each phase, its time as `time` writes it. The names are padded to one more character
than the longest of them has bytes. -/
def table (t : Timings) (time : Duration → String) : String :=
  let width := (t.phases.map String.utf8ByteSize).foldl max 0 + 1
  String.join (t.entries.map fun e =>
    e.1 ++ "".pushn ' ' (width - e.1.length) ++ ": " ++ time e.2 ++ "\n")

/-- A line for each phase. -/
def display (t : Timings) : String := t.table Duration.display

end Timings

end Unsugar
