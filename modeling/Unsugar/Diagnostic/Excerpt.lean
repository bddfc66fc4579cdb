import Unsugar.Diagnostic.Basic
import Unsugar.Text.DisplayWidth

/-!
# Source excerpts

A diagnostic is written as its message and, if it has a label, the line of source that the label
starts in with the labelled characters underlined.
-/

namespace Unsugar

/-- A character of a source line as it is shown. -/
structure Cell where
  char : Char
  /-- The first byte of the character, counted from the start of the line. -/
  offset : Nat
  bytes : Nat
  /-- How many columns it takes. -/
  width : Nat
deriving DecidableEq, Repr

namespace Cell

/-- Tabs reach to the next multiple of so many columns. -/
def tabWidth : Nat := 4

/-- The cells of characters from a byte offset and a column on. -/
def ofChars (offset column : Nat) : List Char → List Cell
  | [] => []
  | c :: rest =>
    let width := if c = '\t' then tabWidth - column % tabWidth else Text.displayWidth c
    ⟨c, offset, c.utf8Size, width⟩ :: ofChars (offset + c.utf8Size) (column + width) rest

/-- A cell as it is printed: a tab is spaces. -/
def shown (cell : Cell) : List Char :=
  if cell.char = '\t' then List.replicate cell.width ' ' else [cell.char]

/-- What stands under a cell for a label of the bytes from `start` to `stop`. -/
def underline (start stop : Nat) (cell : Cell) : List Char :=
  -- The label covers a byte of the character.
  if max start cell.offset < min stop (cell.offset + cell.bytes) then
    List.replicate cell.width '^'
  else if cell.offset < stop then List.replicate cell.width ' '
  else []

end Cell

namespace SourceLine

/-- The characters of a line without line ends and zeros at its end. -/
def trimmed (line : SourceLine) : List Char :=
  (line.chars.reverse.dropWhile fun c => c = '\n' || c = '\r' || c = '\x00').reverse

/-- A line as it is shown. -/
def shown (line : SourceLine) : String :=
  String.ofList ((Cell.ofChars 0 0 line.trimmed).flatMap Cell.shown)

/-- The row under a line that marks a span. A span without bytes marks one, and the row has a column
for the end of the line. -/
def underline (line : SourceLine) (span : Span) : String :=
  let start := span.start - line.start
  let stop := max (span.stop - line.start) (start + 1)
  let cells := Cell.ofChars 0 0 line.trimmed ++ [⟨' ', byteLength line.trimmed, 1, 1⟩]
  String.ofList (cells.flatMap (Cell.underline start stop))

end SourceLine

namespace Diagnostic

/-- The rows that show a span of a source text. -/
def excerpt (file : SourceFile) (span : Span) (notes : List String) : List String :=
  let line := file.lineAt span.start
  let number := line.number.repr
  let margin := "".pushn ' ' number.length
  [s!"{margin} ┌─ {file.name}:{number}:{line.column span.start}",
    s!"{margin} │",
    s!"{number} │ {line.shown}",
    s!"{margin} │ {line.underline span}",
    s!"{margin} │"] ++ notes.map fun note => s!"{margin} = {note}"

/-- A diagnostic as text. -/
def render (files : List SourceFile) (d : Diagnostic) : String :=
  let rows := match d.label? with
    | some label =>
      match files[label.file]? with
      | some file => excerpt file label.span d.notes
      | none => []
    | none => []
  String.join ((("error: " ++ d.message) :: rows ++ [""]).map (· ++ "\n"))

end Diagnostic

end Unsugar
