import Unsugar.Text.Columns

/-!
# Layout documents

A document is text with places where a line may be broken. A group is written on one line if it fits
and otherwise with all of its own breaks taken; the groups inside it are then tried in turn.

Whether a group fits depends on where it starts, on its width when it is flat and on what follows it
up to the next break. The last of these is known before a document is written (`Doc.lead`), so
writing one is a recursion on the document.
-/

namespace Unsugar.Layout

/-- The page width when none is asked for. -/
def defaultWidth : Nat := 80

/-- Text with places where a line may be broken. -/
inductive Doc where
  /-- Nothing. -/
  | nil
  /-- Text that takes a number of columns. -/
  | text (s : String) (columns : Nat)
  /-- A space, or a line break and the indentation. -/
  | line
  /-- One document after another. -/
  | append (first second : Doc)
  /-- A document indented further. -/
  | nest (columns : Nat) (doc : Doc)
  /-- A document indented to the column it starts at. -/
  | align (doc : Doc)
  /-- A document on one line if it fits. -/
  | group (doc : Doc)
deriving Repr

namespace Doc

instance : Append Doc := ⟨Doc.append⟩

/-- A text as it is. -/
def ofString (s : String) : Doc := .text s (Text.columns s)

/-- Documents with a separator between any two. -/
def separated (separator : Doc) : List Doc → Doc
  | [] => .nil
  | [d] => d
  | d :: rest => d ++ separator ++ separated separator rest

/-- The width of a document without line breaks. -/
def flatWidth : Doc → Nat
  | .nil => 0
  | .text _ columns => columns
  | .line => 1
  | .append a b => a.flatWidth + b.flatWidth
  | .nest _ d | .align d | .group d => d.flatWidth

/-- The width of a document up to its first break, and whether it has a break. -/
def lead : Doc → Nat × Bool
  | .nil => (0, false)
  | .text _ columns => (columns, false)
  | .line => (0, true)
  | .append a b =>
    let (width, breaks) := a.lead
    -- Without a break in the first document the second one runs on in the same line.
    if breaks then (width, true) else (width + b.lead.1, b.lead.2)
  | .nest _ d | .align d | .group d => d.lead

/-- The width up to the next break when a document is followed by `after` columns. -/
def leadBefore (d : Doc) (after : Nat) : Nat :=
  let (width, breaks) := d.lead
  if breaks then width else width + after

end Doc

/-- What was written, and the column the next character comes in. -/
structure Page where
  text : String
  column : Nat
deriving DecidableEq, Repr

namespace Page

/-- The page before anything is written. -/
def blank : Page := ⟨"", 0⟩

/-- Writes text. -/
def write (p : Page) (s : String) (columns : Nat) : Page :=
  ⟨p.text ++ s, p.column + columns⟩

/-- Starts a line at a column. -/
def newline (p : Page) (column : Nat) : Page :=
  ⟨p.text.push '\n' ++ "".pushn ' ' column, column⟩

/-- Whether `columns` more columns stay within the width. Nothing at all always does. -/
def hasRoom (p : Page) (width columns : Nat) : Bool :=
  columns = 0 || p.column + columns ≤ width

end Page

namespace Doc

/-- Writes a document at an indentation. `after` is the width of what follows it up to the next
break; `flat` says that its own breaks are spaces. -/
def write (width : Nat) (flat : Bool) (indent after : Nat) : Doc → Page → Page
  | .nil, p => p
  | .text s columns, p => p.write s columns
  | .line, p => if flat then p.write " " 1 else p.newline indent
  | .append a b, p =>
    -- What follows `a` up to a break is the front of `b`, and more if `b` has none.
    b.write width flat indent after (a.write width flat indent (b.leadBefore after) p)
  | .nest columns d, p => d.write width flat (indent + columns) after p
  | .align d, p => d.write width flat p.column after p
  -- Inside of a flat group every group is flat.
  | .group d, p => d.write width (flat || p.hasRoom width (d.flatWidth + after)) indent after p

/-- A document written on a page of a width, with a line break at its end. -/
def render (width : Nat) (d : Doc) : String :=
  ((d ++ line).write width false 0 0 .blank).text

end Doc

end Unsugar.Layout
