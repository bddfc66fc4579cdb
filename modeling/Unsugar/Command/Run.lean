import Unsugar.Command.Arguments
import Unsugar.Diagnostic.Excerpt
import Unsugar.Program.Codec
import Unsugar.Syntax.Codec
import Unsugar.Text.ControlSequence
import Unsugar.Timings

/-!
# Runs

A run loads the source text and the tree, lowers the tree, checks the result and writes it out. What
it needs of the world is a `Host`: files, the standard input and a clock. The outcome is data, from
which the exit code and what is written to the two output streams follow.
-/

namespace Unsugar

/-- What a run needs of the world. -/
structure Host (m : Type → Type) where
  /-- The bytes of a file, if it can be read. -/
  file : String → m (Option ByteArray)
  /-- The bytes of the standard input. -/
  input : m ByteArray
  /-- A time in nanoseconds. -/
  clock : m Nat

/-- What came of a run. -/
structure Outcome where
  result : Except Failure Program
  /-- The source texts that were loaded. -/
  sources : List SourceFile := []
  timings : Timings := .empty
  /-- What happened, in order. -/
  events : List Event := []

namespace Outcome

/-- The place of the source text that labels refer to: the one loaded last. -/
def source? (sources : List SourceFile) : Option Nat :=
  if sources.isEmpty then none else some (sources.length - 1)

/-- The report of a failure in the texts of a run. -/
def diagnose (sources : List SourceFile) (f : Failure) : Diagnostic :=
  .ofFailure (source? sources) f

end Outcome

namespace Run

/-- What is said of bytes that are no text. -/
def notText : String := "stream did not contain valid UTF-8"

/-- What is said of a text that is no tree. -/
def notTree : String := "expected the JSON form of a list of nodes"

section

variable {m : Type → Type} [Monad m]

/-- The text of a file. -/
def readText (host : Host m) (path : String) : m (Except Failure String) := do
  match (← host.file path).bind String.fromUTF8? with
  | some text => return .ok text
  | none => return .error (.unreadable path)

/-- The text of the tree: the standard input for `-`, and otherwise a file. -/
def readTree (host : Host m) (path : String) : m (Except Failure String) := do
  if path = "-" then
    match String.fromUTF8? (← host.input) with
    | some text => return .ok text
    | none => return .error (.stream notText)
  else
    readText host path

/-- Loads the source text, if one is asked for. -/
def loadSource (host : Host m) (path? : Option String) : m (Except Failure (List SourceFile)) := do
  match path? with
  | none => return .ok []
  | some path => return (← readText host path).map fun text => [⟨path, text⟩]

/-- Loads the tree. -/
def loadTree (host : Host m) (path : String) : m (Except Failure (List Node)) := do
  return (← readTree host path).bind fun text =>
    match Node.parseTree? text with
    | some items => .ok items
    | none => .error (.tree notTree)

/-- Loads the source text and the tree, lowers the tree and checks the program. A phase that fails
is not recorded. -/
def prepare (host : Host m) (o : Options) : m Outcome := do
  let start ← host.clock
  match ← loadSource host o.source? with
  | .error f => return { result := .error f }
  | .ok sources =>
    match ← loadTree host o.tree with
    | .error f => return { result := .error f, sources }
    | .ok items =>
      let loaded ← host.clock
      let timings := Timings.empty.record "load" (.ofNanos (loaded - start))
      let events := [Event.loaded items.length o.tree]
      -- Without a source text the events still name a file, the first one.
      let file := (Outcome.source? sources).getD 0
      let (lowered, c) := Node.lowerAll o.settings file items
      let events := events ++ c.events.reverse
      match lowered with
      | .error e => return { result := .error (.unresolved e), sources, timings, events }
      | .ok program =>
        let lowered ← host.clock
        let timings := timings.record "desugar" (.ofNanos (lowered - loaded))
        match program.term.check o.settings.prelude.length with
        | .error d => return { result := .error (.defect d), sources, timings, events }
        | .ok () =>
          let checked ← host.clock
          let timings := timings.record "verify" (.ofNanos (checked - lowered))
          let events := events ++ [.finished program.literals.length]
          return { result := .ok program, sources, timings, events }

end

end Run

/-- A program written out in the format that is asked for. -/
def Program.render (p : Program) (o : Options) : String :=
  match o.format with
  | .pretty => p.layout o.width
  | .json => p.toJson.indented ++ "\n"
  | .debug => p.outline.spread ++ "\n"

/-- What a process leaves behind. -/
structure Exit where
  code : Nat
  stdout : String
  stderr : String
deriving DecidableEq, Repr

/-- An event as a line of the debug log; further lines of its message are indented, and nothing in
it can steer the terminal that shows the log. -/
def Event.logLine (e : Event) : String :=
  Text.withoutControls <|
    s!"[{e.severity.label} {e.channel}] " ++ "\n    ".intercalate (e.message.splitOn "\n") ++ "\n"

/-- The statistics of a run, if there are any. -/
def Timings.statistics (t : Timings) (time : Duration → String) : String :=
  if t.isEmpty then ""
  else "\n~~~~~~~~~~\nSTATISTICS\n~~~~~~~~~~\n\n" ++ t.table time ++ "\n"

namespace Outcome

/-- The lines of the debug log. -/
def log (outcome : Outcome) (o : Options) : String :=
  String.join
    (((.started o.explanation :: outcome.events).filter (·.severity = .debug)).map Event.logLine)

/-- How a process ends after a run: the log, then the report of a failure, then the statistics go to
the error stream. -/
def exit (outcome : Outcome) (o : Options) (time : Duration → String) : Exit :=
  let log := if o.debug then outcome.log o else ""
  let statistics := if o.statistics then outcome.timings.statistics time else ""
  match outcome.result with
  | .ok program => ⟨0, program.render o, log ++ statistics⟩
  | .error f =>
    ⟨1, "", log ++ (diagnose outcome.sources f).render outcome.sources ++ statistics⟩

end Outcome

namespace Halt

/-- The text that `--help` asks for. -/
def helpText : String :=
  String.join <| List.map (· ++ "\n")
    ["Desugar explicit binding syntax into lambda terms",
      "",
      "Usage: bsg [OPTIONS] [TREE]",
      "",
      "Arguments:",
      "  [TREE]  JSON syntax tree to desugar (- for stdin) [default: -]",
      "",
      "Options:",
      "  -s, --source <SOURCE>                Source text the tree was parsed from",
      "  -f, --format <FORMAT>                pretty, json or debug [default: pretty]",
      "  -w, --width <WIDTH>                  Page width for pretty output [default: 80]",
      "  -m, --macro <MACRO>                  Bring a macro name into scope around the program",
      "  -v, --value <VALUE>                  Bring an ordinary name into scope around the program",
      "      --effect-suffix <EFFECT_SUFFIX>  Suffix marking effects [default: !]",
      "  -S, --statistics                     Print phase timings to stderr before exiting",
      "  -d, --debug                          Turn on debug logging",
      "  -h, --help                           Print help",
      "  -V, --version                        Print version"]

/-- Says what is wrong with the arguments. -/
def reason : Halt → String
  | .help | .version => ""
  | .unknownArgument => "unexpected argument found"
  | .missingValue => "a value is required but none was supplied"
  | .invalidValue => "invalid value"
  | .invalidNumber => "invalid width"
  | .repeated => "an argument cannot be used multiple times"
  | .unneededValue => "unexpected value for a flag"

/-- How a process ends when its arguments give no options. -/
def exit : Halt → Exit
  | .help => ⟨0, helpText, ""⟩
  | .version => ⟨0, "bsg 0.1.0\n", ""⟩
  | halt => ⟨2, "", s!"error: {halt.reason}\n\nFor more information, try '--help'.\n"⟩

end Halt

end Unsugar
