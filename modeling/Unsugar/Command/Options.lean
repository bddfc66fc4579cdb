import Unsugar.Lowering.Context
import Unsugar.Term.Display

/-!
# Options of a run
-/

namespace Unsugar

/-- How a program is written out. -/
inductive OutputFormat where
  /-- Terms laid out on a page. -/
  | pretty
  /-- The term and the literals as JSON. -/
  | json
  /-- The structure of the term and the literals. -/
  | debug
deriving DecidableEq, Repr

namespace OutputFormat

/-- The word for a format. -/
def word : OutputFormat → String
  | .pretty => "pretty"
  | .json => "json"
  | .debug => "debug"

/-- The format of a word. -/
def ofWord? : String → Option OutputFormat
  | "pretty" => some .pretty
  | "json" => some .json
  | "debug" => some .debug
  | _ => none

end OutputFormat

/-- What a run is asked to do. -/
structure Options where
  /-- The path of the tree; `-` is the standard input. -/
  tree : String := "-"
  /-- The path of the text that the tree was read from. -/
  source? : Option String := none
  format : OutputFormat := .pretty
  width : Nat := Layout.defaultWidth
  settings : Settings := {}
  /-- Report how long each phase took. -/
  statistics : Bool := false
  /-- Report what happens. -/
  debug : Bool := false
deriving DecidableEq, Repr

namespace Options

/-- Adds a name around the program, inside those that are there. -/
def addName (o : Options) (kind : NameKind) (name : String) : Options :=
  { o with settings := { o.settings with prelude := o.settings.prelude ++ [(kind, name)] } }

/-- The names of a kind around the program. -/
def names (o : Options) (kind : NameKind) : List String :=
  (o.settings.prelude.filter (·.1 = kind)).map (·.2)

/-- Says which options are in effect. -/
def explanation (o : Options) : String :=
  "\n".intercalate
    [s!"tree: {o.tree}", s!"format: {o.format.word}",
      "macros: " ++ ", ".intercalate (o.names .macroName),
      "values: " ++ ", ".intercalate (o.names .ordinary),
      s!"effect suffix: {o.settings.effectSuffix}"]

end Options

end Unsugar
