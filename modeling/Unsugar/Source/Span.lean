/-!
# Spans of source text

A span is a half-open range of byte positions. Positions are kept in 32 bits, so a position that
does not fit is recorded as the largest one that does.
-/

namespace Unsugar

/-- A half-open range of byte positions in a source text. -/
structure Span where
  start : Nat
  stop : Nat
deriving DecidableEq, Repr

namespace Span

/-- The largest position a span records: the largest of 32 bits. -/
def maxPosition : Nat := 0xFFFFFFFF

/-- The span of `width` bytes from `pos`, both ends held at `maxPosition`. -/
def ofWidth (pos width : Nat) : Span :=
  ⟨min pos maxPosition, min (pos + width) maxPosition⟩

/-- The span between two positions, given in either order. -/
def between (a b : Nat) : Span :=
  ⟨min a b, max a b⟩

end Span

end Unsugar
