import Unsugar.Literal.Basic

/-!
# Literal tables

A table lists literals in the order they were first met. Interning a literal gives its place and
adds it at the end when it is new, so that places never change.
-/

namespace Unsugar

/-- Literals in the order they were first met. -/
structure LiteralTable where
  toList : List Literal
deriving DecidableEq, Repr

namespace LiteralTable

/-- The table without any literal. -/
def empty : LiteralTable := ⟨[]⟩

/-- The table of the reserved atoms. -/
def reserved : LiteralTable := ⟨Reserved.all.map Reserved.literal⟩

/-- How many literals a table has. -/
def size (t : LiteralTable) : Nat := t.toList.length

/-- Whether a table has no literal. -/
def isEmpty (t : LiteralTable) : Bool := t.toList.isEmpty

/-- The literal at a place. -/
def get? (t : LiteralTable) (i : Nat) : Option Literal := t.toList[i]?

/-- The place of a literal. -/
def indexOf? (t : LiteralTable) (l : Literal) : Option Nat :=
  t.toList.findIdx? (· = l)

/-- The place of a literal, which is added at the end when it is new. -/
def intern (t : LiteralTable) (l : Literal) : Nat × LiteralTable :=
  match t.indexOf? l with
  | some i => (i, t)
  | none => (t.size, ⟨t.toList ++ [l]⟩)

/-! ## What interning does to the list -/

/-- `intern` adds a literal at the end if the table does not have it. -/
theorem toList_intern (t : LiteralTable) (l : Literal) :
    (t.intern l).2.toList = if l ∈ t.toList then t.toList else t.toList ++ [l] := by
  unfold intern indexOf?
  cases h : t.toList.findIdx? (· = l) with
  | none =>
    rw [List.findIdx?_eq_none_iff] at h
    have hl : l ∉ t.toList := fun hm => by simpa using h l hm
    simp [hl]
  | some i =>
    have hl : l ∈ t.toList := by
      obtain ⟨hi, hp, -⟩ := List.findIdx?_eq_some_iff_getElem.1 h
      have : t.toList[i] = l := by simpa using hp
      exact this ▸ List.getElem_mem hi
    simp [hl]

/-- `intern` gives the literal's place in the new table. -/
theorem get?_intern (t : LiteralTable) (l : Literal) :
    (t.intern l).2.get? (t.intern l).1 = some l := by
  unfold intern indexOf? get?
  cases h : t.toList.findIdx? (· = l) with
  | none => simp [size]
  | some i =>
    obtain ⟨hi, hp, -⟩ := List.findIdx?_eq_some_iff_getElem.1 h
    have : t.toList[i] = l := by simpa using hp
    simp [hi, this]

/-- `intern` keeps the places of the literals that were there. -/
theorem prefix_toList_intern (t : LiteralTable) (l : Literal) :
    t.toList <+: (t.intern l).2.toList := by
  rw [toList_intern]
  split
  · exact List.prefix_refl _
  · exact List.prefix_append _ _

/-- `intern` adds no literal a second time. -/
theorem nodup_toList_intern {t : LiteralTable} (h : t.toList.Nodup) (l : Literal) :
    (t.intern l).2.toList.Nodup := by
  rw [toList_intern]
  split
  · exact h
  · next hl => exact List.nodup_append.2 ⟨h, by simp, by rintro a ha _ hb rfl; simp_all⟩

end LiteralTable

end Unsugar
