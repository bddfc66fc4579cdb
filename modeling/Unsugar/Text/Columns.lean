import Unsugar.Text.Cluster

/-!
# Columns of a text

How long a text counts in a layout: ASCII text by its characters, any other by its grapheme
clusters.
-/

namespace Unsugar.Text

/-- The length of a text in a layout. -/
def columns (s : String) : Nat :=
  if s.toList.all (·.toNat < 128) then s.length else clusterCount s.toList

end Unsugar.Text
