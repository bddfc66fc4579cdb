import Unsugar.Command.Options
import Unsugar.Decimal.Digits

/-!
# Command line arguments

The arguments of the command line are options with a value, switches and at most one tree. Options
are written `-w 80`, `-w80`, `-w=80`, `--width 80` or `--width=80`; short switches combine, and
`--` ends the options. A value in an argument of its own does not start with `-`, unless that is all
of it.

A value is looked at only when the next option, switch or tree is taken, or at the end. An argument
that cannot be placed is therefore reported before a bad value in front of it.
-/

namespace Unsugar

/-- Why the arguments give no options. -/
inductive Halt where
  | help
  | version
  /-- A flag that does not exist, or a second tree. -/
  | unknownArgument
  /-- An option without its value. -/
  | missingValue
  /-- A value that is not one of those an option takes. -/
  | invalidValue
  /-- A width that is not a number. -/
  | invalidNumber
  /-- An option or switch that may be given once, given again. -/
  | repeated
  /-- A switch with a value. -/
  | unneededValue
deriving DecidableEq, Repr

/-- Options that take a value. -/
inductive ValueOption where
  | source
  | format
  | width
  | macroName
  | valueName
  | effectSuffix
deriving DecidableEq, Repr

/-- Options without a value. -/
inductive Switch where
  | statistics
  | debug
  | help
  | version
deriving DecidableEq, Repr

/-- What a flag selects. -/
inductive Flag where
  | option (o : ValueOption)
  | switch (s : Switch)
deriving DecidableEq, Repr

namespace Flag

/-- The flag of a letter after a single dash. -/
def ofShort? : Char → Option Flag
  | 's' => some (.option .source)
  | 'f' => some (.option .format)
  | 'w' => some (.option .width)
  | 'm' => some (.option .macroName)
  | 'v' => some (.option .valueName)
  | 'S' => some (.switch .statistics)
  | 'd' => some (.switch .debug)
  | 'h' => some (.switch .help)
  | 'V' => some (.switch .version)
  | _ => none

/-- The flag of a word after two dashes. -/
def ofLong? : String → Option Flag
  | "source" => some (.option .source)
  | "format" => some (.option .format)
  | "width" => some (.option .width)
  | "macro" => some (.option .macroName)
  | "value" => some (.option .valueName)
  | "effect-suffix" => some (.option .effectSuffix)
  | "statistics" => some (.switch .statistics)
  | "debug" => some (.switch .debug)
  | "help" => some (.switch .help)
  | "version" => some (.switch .version)
  | _ => none

end Flag

/-- An unsigned number of 64 bits: decimal digits, maybe after a plus sign. -/
def widthOfString? (s : String) : Option Nat :=
  let digits := match s.toList with
    | '+' :: ds => ds
    | ds => ds
  if digits.isEmpty || !digits.all Char.isDigit then none
  else
    let n := Decimal.ofDigits digits
    if n < Nat.pow 2 64 then some n else none

/-- What was given so far. -/
structure Given where
  tree? : Option String := none
  source? : Option String := none
  format? : Option OutputFormat := none
  width? : Option Nat := none
  effectSuffix? : Option String := none
  /-- Macros and values in the order they were given. -/
  macros : List String := []
  values : List String := []
  statistics : Bool := false
  debug : Bool := false
deriving DecidableEq, Repr

namespace Given

/-- Gives a value to an option. -/
def setOption (g : Given) (value : String) : ValueOption → Except Halt Given
  | .source =>
    if g.source?.isSome then .error .repeated
    else if value.isEmpty then .error .invalidValue
    else .ok { g with source? := some value }
  | .format =>
    if g.format?.isSome then .error .repeated
    else match OutputFormat.ofWord? value with
      | some f => .ok { g with format? := some f }
      | none => .error .invalidValue
  | .width =>
    if g.width?.isSome then .error .repeated
    else match widthOfString? value with
      | some n => .ok { g with width? := some n }
      | none => .error .invalidNumber
  | .effectSuffix =>
    if g.effectSuffix?.isSome then .error .repeated
    else .ok { g with effectSuffix? := some value }
  | .macroName => .ok { g with macros := g.macros ++ [value] }
  | .valueName => .ok { g with values := g.values ++ [value] }

/-- Turns a switch on. -/
def setSwitch (g : Given) : Switch → Except Halt Given
  | .statistics => if g.statistics then .error .repeated else .ok { g with statistics := true }
  | .debug => if g.debug then .error .repeated else .ok { g with debug := true }
  | .help => .error .help
  | .version => .error .version

/-- The options that were given, and otherwise the usual ones. Values stand outside macros. -/
def options (g : Given) : Options where
  tree := g.tree?.getD "-"
  source? := g.source?
  format := g.format?.getD .pretty
  width := g.width?.getD Layout.defaultWidth
  settings :=
    { prelude := g.values.map (.ordinary, ·) ++ g.macros.map (.macroName, ·)
      effectSuffix := g.effectSuffix?.getD "!" }
  statistics := g.statistics
  debug := g.debug

end Given

/-- The state between two arguments. -/
structure ArgumentState where
  given : Given := {}
  /-- The last option, if its value was not looked at yet, and the value once it is there. -/
  waiting : Option (ValueOption × Option String) := none
deriving DecidableEq, Repr

namespace ArgumentState

/-- Looks at the value that waits. -/
def settle (s : ArgumentState) : Except Halt Given :=
  match s.waiting with
  | none => .ok s.given
  | some (_, none) => .error .missingValue
  | some (o, some value) => s.given.setOption value o

/-- Takes an option, with its value if that is attached. -/
def takeOption (s : ArgumentState) (o : ValueOption) (attached : Option String) :
    Except Halt ArgumentState := do
  let given ← s.settle
  match attached with
  | some value => return { given := ← given.setOption value o }
  | none => return { given, waiting := some (o, none) }

/-- Takes a switch. -/
def takeSwitch (s : ArgumentState) (w : Switch) : Except Halt ArgumentState := do
  return { given := ← (← s.settle).setSwitch w }

/-- Takes an argument that is no flag as the tree. -/
def takeTree (s : ArgumentState) (path : String) : Except Halt ArgumentState := do
  -- A second tree is reported before a bad value that still waits.
  if s.given.tree?.isSome then throw .unknownArgument
  return { given := { (← s.settle) with tree? := some path } }

/-- Takes an argument that is no flag: a value if an option waits for one, and the tree otherwise. -/
def takePlain (s : ArgumentState) (arg : String) : Except Halt ArgumentState :=
  match s.waiting with
  | some (o, none) => .ok { s with waiting := some (o, some arg) }
  | _ => s.takeTree arg

/-- Takes a flag of two dashes, split at its first equals sign. -/
def takeLong (s : ArgumentState) (cs : List Char) : Except Halt ArgumentState :=
  let name := String.ofList (cs.takeWhile (· ≠ '='))
  let attached := match cs.dropWhile (· ≠ '=') with
    | [] => none
    | _ :: value => some (String.ofList value)
  match Flag.ofLong? name, attached with
  | some (.option o), _ => s.takeOption o attached
  | some (.switch w), none => s.takeSwitch w
  | some (.switch _), some _ => .error .unneededValue
  | none, _ => .error .unknownArgument

/-- Takes the letters after a single dash: switches, and then maybe an option whose value is the rest
of them, less one equals sign. -/
def takeShort (s : ArgumentState) : List Char → Except Halt ArgumentState
  | [] => .ok s
  | c :: rest => do
    match Flag.ofShort? c with
    | some (.switch w) => (← s.takeSwitch w).takeShort rest
    | some (.option o) =>
      match rest with
      | [] => s.takeOption o none
      | '=' :: value => s.takeOption o (some (String.ofList value))
      | value => s.takeOption o (some (String.ofList value))
    | none => throw .unknownArgument

/-- Takes arguments that may be flags. -/
def takeAll (s : ArgumentState) : List String → Except Halt ArgumentState
  | [] => .ok s
  | arg :: rest => do
    match arg.toList with
    -- A single dash is no flag, and comes to the last case.
    | ['-', '-'] => rest.foldlM takeTree s
    | '-' :: '-' :: cs => (← s.takeLong cs).takeAll rest
    | '-' :: c :: cs => (← s.takeShort (c :: cs)).takeAll rest
    | _ => (← s.takePlain arg).takeAll rest

end ArgumentState

/-- The options of command line arguments. -/
def Options.ofArguments (args : List String) : Except Halt Options := do
  return (← (← ArgumentState.takeAll {} args).settle).options

end Unsugar
