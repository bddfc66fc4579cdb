import Unsugar.Term.Basic

/-!
# Free indices

The largest index by which a term reaches outside itself. A term whose largest free index is below
`n` is scoped under `n` names. It is found in one scan, which counts the binders around the place
where it is and keeps the largest index that reached past them so far.
-/

namespace Unsugar

/-- The state of a scan for free indices. -/
structure FreeScan where
  /-- How many binders are open. -/
  depth : Nat := 0
  /-- The largest free index met so far, counted from outside the whole term. -/
  largest : Option Nat := none
deriving DecidableEq, Repr

namespace FreeScan

/-- Takes note of a variable: it is free if it reaches past the open binders. -/
def encounter (s : FreeScan) (index : Nat) : FreeScan :=
  if s.depth ≤ index then
    let free := index - s.depth
    { s with largest := some (s.largest.elim free (max · free)) }
  else
    s

/-- Goes below binders. -/
def enter (s : FreeScan) (binders : Nat) : FreeScan :=
  { s with depth := s.depth + binders }

/-- Comes back out from below binders. -/
def leave (s : FreeScan) (binders : Nat) : FreeScan :=
  { s with depth := s.depth - binders }

end FreeScan

namespace Term

/-- The `children` of a term are smaller than it, so that `scan` comes to an end. -/
theorem sizeOf_lt_of_mem_children {t u : Term} (h : u ∈ t.children) : sizeOf u < sizeOf t := by
  cases t <;> simp [children] at h <;> grind

/-- Scans a term: a variable is taken note of, and the parts of any other term are scanned in order
below its binders. -/
def scan (t : Term) (s : FreeScan) : FreeScan :=
  match t with
  | .var i => s.encounter i
  | t =>
    let inside := t.children.attach.foldl (fun s u => u.1.scan s) (s.enter t.binders)
    inside.leave t.binders
termination_by sizeOf t
decreasing_by exact sizeOf_lt_of_mem_children u.2

/-- The largest free index of a term; `none` for a closed one. -/
def maxFree (t : Term) : Option Nat :=
  (t.scan {}).largest

end Term

end Unsugar
