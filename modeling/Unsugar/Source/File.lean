import Unsugar.Source.Span

/-!
# Source texts

A source text is looked at by lines. A line starts after each line feed, so a text that ends in one
has an empty last line.
-/

namespace Unsugar

/-- A named source text. -/
structure SourceFile where
  name : String
  text : String
deriving DecidableEq, Repr

/-- A line of a source text, with the line feed that ends it. -/
structure SourceLine where
  /-- The first line has number 1. -/
  number : Nat
  /-- The byte position at which the line starts. -/
  start : Nat
  chars : List Char
deriving DecidableEq, Repr

/-- How many bytes characters take. -/
def byteLength (cs : List Char) : Nat :=
  cs.foldr (fun c n => c.utf8Size + n) 0

namespace SourceLine

/-- Lines of a text, the first of which has the given number and start. -/
def split (number start : Nat) : List Char → List SourceLine
  | [] => [⟨number, start, []⟩]
  | c :: rest =>
    if c = '\n' then
      ⟨number, start, [c]⟩ :: split (number + 1) (start + 1) rest
    else
      match split number (start + c.utf8Size) rest with
      | line :: lines => ⟨number, start, c :: line.chars⟩ :: lines
      | [] => [⟨number, start, [c]⟩]

/-- The column of a byte position: one more than the characters that end at or before it. -/
def column (line : SourceLine) (pos : Nat) : Nat :=
  1 + ended (pos - line.start) line.chars
where
  /-- How many of the characters end within so many bytes. -/
  ended (bytes : Nat) : List Char → Nat
    | [] => 0
    | c :: rest => if c.utf8Size ≤ bytes then 1 + ended (bytes - c.utf8Size) rest else 0

end SourceLine

namespace SourceFile

/-- The lines of a source text. -/
def lines (f : SourceFile) : List SourceLine :=
  SourceLine.split 1 0 f.text.toList

/-- The last line that starts at or before a byte position. -/
def lineAt (f : SourceFile) (pos : Nat) : SourceLine :=
  ((f.lines.filter (·.start ≤ pos)).getLast?).getD ⟨1, 0, []⟩

end SourceFile

end Unsugar
