/-!
# Scopes

The names in scope at a point of a program, innermost first, so that the place of an entry is the
variable index it is referred to by. An entry without a name stands for an argument that is ignored.
-/

namespace Unsugar

/-- How calls of a name are lowered. -/
inductive NameKind where
  /-- A macro: it sees its arguments as tagged structure. -/
  | macroName
  /-- An ordinary name: its arguments are values. -/
  | ordinary
deriving DecidableEq, Repr

/-- One binder of a scope; without a name it cannot be referred to. -/
structure ScopeEntry where
  kind : NameKind
  name? : Option String
deriving DecidableEq, Repr

namespace ScopeEntry

/-- An entry that a name refers to. -/
def named (kind : NameKind) (name : String) : ScopeEntry := ⟨kind, some name⟩

/-- An entry for an ignored argument. -/
def placeholder : ScopeEntry := ⟨.ordinary, none⟩

end ScopeEntry

/-- The binders around a point of a program, innermost first. -/
structure Scope where
  entries : List ScopeEntry
deriving DecidableEq, Repr

namespace Scope

/-- The scope without binders. -/
def empty : Scope := ⟨[]⟩

/-- How many binders a scope has. -/
def depth (s : Scope) : Nat := s.entries.length

/-- Adds an innermost binder. -/
def push (s : Scope) (e : ScopeEntry) : Scope := ⟨e :: s.entries⟩

/-- Drops inner binders until at most `depth` are left. -/
def truncate (s : Scope) (depth : Nat) : Scope :=
  ⟨s.entries.drop (s.depth - depth)⟩

/-- The variable index of the innermost binder of a name. -/
def resolve? (s : Scope) (name : String) : Option Nat :=
  s.entries.findIdx? (·.name? = some name)

/-- The kind of the innermost binder of a name. -/
def classify? (s : Scope) (name : String) : Option NameKind :=
  (s.entries.find? (·.name? = some name)).map ScopeEntry.kind

@[simp] theorem depth_push (s : Scope) (e : ScopeEntry) : (s.push e).depth = s.depth + 1 := rfl

/-- `resolve?` after `push` of a binder of another name, or of none: the name is one further in. -/
theorem resolve?_push_of_ne (s : Scope) {e : ScopeEntry} {name : String}
    (h : e.name? ≠ some name) :
    (s.push e).resolve? name = (s.resolve? name).map (· + 1) := by
  simp [resolve?, push, List.findIdx?_cons, h]

/-- `resolve?` gives an index within the scope. -/
theorem lt_depth_of_resolve? {s : Scope} {name : String} {i : Nat}
    (h : s.resolve? name = some i) : i < s.depth :=
  (List.findIdx?_eq_some_iff_getElem.1 h).1

/-- `truncate` to the former depth drops what was put in front. -/
theorem truncate_append (inner : List ScopeEntry) (s : Scope) :
    (Scope.mk (inner ++ s.entries)).truncate s.depth = s := by
  simp [truncate, depth]

end Scope

end Unsugar
