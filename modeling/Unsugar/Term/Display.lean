import Unsugar.Layout.Doc
import Unsugar.Program
import Unsugar.Text.Quoted

/-!
# Terms as text

How terms are written for people: `λ.` and `μ.` for the two abstractions, `#i` for a variable, an
application in parentheses, and the other forms as a name with its operands. A literal is written
out if the table has it, and as `%i` otherwise.
-/

namespace Unsugar

open Layout

/-- A literal as it is written: an atom as it is, a text in quotes. -/
def Literal.display : Literal → String
  | .atom name => name
  | .text content => Text.quoted content

/-- The line a literal makes when it is written alone. -/
def Literal.layout (l : Literal) : String :=
  (Doc.ofString l.display).render defaultWidth

namespace Term

/-- The document of the literal at a place. -/
def literalDoc (literals : List Literal) (i : Nat) : Doc :=
  match literals[i]? with
  | some l => .ofString l.display
  | none => .ofString s!"%{i}"

/-- The document of an abstraction under its mark. -/
def binderDoc (mark : String) (body : Doc) : Doc :=
  .group (.ofString mark ++ .nest 2 (.line ++ body))

/-- The document of a named form. -/
def formDoc (name : String) (operands : List Doc) : Doc :=
  .group (.ofString name ++ .ofString "(" ++
    .align (.separated (.ofString "," ++ .line) operands) ++ .ofString ")")

/-- The document of a term. -/
def doc (literals : List Literal) : Term → Doc
  | .var i => .ofString s!"#{i}"
  | .lit i | .effect i => literalDoc literals i
  | .abs b => binderDoc "λ." (b.doc literals)
  | .fix b => binderDoc "μ." (b.doc literals)
  | .app f x =>
    .group (.ofString "(" ++ f.doc literals ++ .nest 2 (.line ++ x.doc literals) ++ .ofString ")")
  | .typeOf v => formDoc "type" [v.doc literals]
  | .unpack v c o => formDoc "unpack" [v.doc literals, c.doc literals, o.doc literals]
  | .handle b h => formDoc "handle" [b.doc literals, h.doc literals]
  | .compare l r e o =>
    formDoc "compare" [l.doc literals, r.doc literals, e.doc literals, o.doc literals]

/-- A term written on a page of a width. -/
def layout (t : Term) (literals : List Literal) (width : Nat) : String :=
  (t.doc literals).render width

end Term

/-- A program written on a page of a width. -/
def Program.layout (p : Program) (width : Nat) : String :=
  p.term.layout p.literals width

end Unsugar
