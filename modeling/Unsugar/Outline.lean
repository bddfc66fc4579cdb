import Unsugar.Program
import Unsugar.Text.Quoted

/-!
# Outlines

The structure of a value spelt out: every constructor by name with what it holds. An outline is
written on one line, or with each part on a line of its own.
-/

namespace Unsugar

/-- The structure of a value. -/
inductive Outline where
  /-- A value without parts. -/
  | leaf (text : String)
  /-- A constructor and what it holds. -/
  | call (name : String) (parts : List Outline)
  /-- A constructor with named fields. -/
  | record (name : String) (fields : List (String × Outline))
  | list (items : List Outline)
deriving Repr

namespace Outline

/-! ## On one line -/

mutual

/-- An outline on one line. -/
def inline : Outline → String
  | .leaf text => text
  | .call name parts => name ++ "(" ++ ", ".intercalate (inlineParts parts) ++ ")"
  | .record name fields =>
    name ++ " \x7b " ++ ", ".intercalate (inlineFields fields) ++ " \x7d"
  | .list items => "[" ++ ", ".intercalate (inlineParts items) ++ "]"

/-- Several outlines, each on one line. -/
def inlineParts : List Outline → List String
  | [] => []
  | part :: rest => part.inline :: inlineParts rest

/-- Several fields, each on one line. -/
def inlineFields : List (String × Outline) → List String
  | [] => []
  | (name, value) :: rest => (name ++ ": " ++ value.inline) :: inlineFields rest

end

/-! ## One part a line -/

/-- The indentation of lines that are `depth` levels in. -/
def indentation (depth : Nat) : String :=
  "".pushn ' ' (4 * depth)

mutual

/-- Adds an outline that stands `depth` levels in. -/
def spreadTo (depth : Nat) : Outline → String → String
  | .leaf text, out => out ++ text
  | .call name parts, out =>
    spreadParts (depth + 1) parts (out ++ name ++ "(\n") ++ indentation depth ++ ")"
  | .record name fields, out =>
    spreadFields (depth + 1) fields (out ++ name ++ " \x7b\n") ++ indentation depth ++ "\x7d"
  | .list [], out => out ++ "[]"
  | .list items, out => spreadParts (depth + 1) items (out ++ "[\n") ++ indentation depth ++ "]"

/-- Adds parts, each on lines of its own that end in a comma. -/
def spreadParts (depth : Nat) : List Outline → String → String
  | [], out => out
  | part :: rest, out =>
    spreadParts depth rest (part.spreadTo depth (out ++ indentation depth) ++ ",\n")

/-- Adds fields, each on lines of its own that end in a comma. -/
def spreadFields (depth : Nat) : List (String × Outline) → String → String
  | [], out => out
  | (name, value) :: rest, out =>
    spreadFields depth rest
      (value.spreadTo depth (out ++ indentation depth ++ name ++ ": ") ++ ",\n")

end

/-- An outline with one part a line. -/
def spread (o : Outline) : String := o.spreadTo 0 ""

end Outline

/-! ## Outlines of terms and programs -/

/-- The outline of a number. -/
def Outline.nat (n : Nat) : Outline := .leaf n.repr

/-- The outline of a term. -/
def Term.outline : Term → Outline
  | .var i => .call "Var" [.nat i]
  | .lit i => .call "Lit" [.nat i]
  | .effect i => .call "Effect" [.nat i]
  | .abs b => .call "Abs" [b.outline]
  | .fix b => .call "Rec" [b.outline]
  | .app f x => .call "App" [f.outline, x.outline]
  | .typeOf v => .call "TypeOf" [v.outline]
  | .unpack v c o => .call "Unpack" [.list [v.outline, c.outline, o.outline]]
  | .handle b h => .call "Handle" [.list [b.outline, h.outline]]
  | .compare l r e o => .call "Compare" [.list [l.outline, r.outline, e.outline, o.outline]]

/-- The outline of a literal. -/
def Literal.outline : Literal → Outline
  | .atom name => .call "Atom" [.leaf (Text.quoted name)]
  | .text content => .call "Text" [.leaf (Text.quoted content)]

/-- The outline of a program. -/
def Program.outline (p : Program) : Outline :=
  .record "Program" [("expr", p.term.outline), ("literals", .list (p.literals.map Literal.outline))]

/-- Says why a term is no program body. -/
def Defect.message : Defect → String
  | .notAbstraction t => s!"desugared program is not an abstraction: {t.outline.inline}"
  | .unbound index names =>
    s!"desugared program refers to unbound variable #{index} (prelude has {names} names)"

end Unsugar
