import Mathlib.Data.List.Basic
import Unsugar.Layout.Doc

/-!
# Blanks in a layout

A document is written with more or fewer line breaks depending on the width of the page and on where it
starts. Where a line is not broken a space is written, so two pages with the same document differ only
in how their runs of blanks look: `Text.collapse` makes each run a single space, and what is left is
the document on one line.

## Key results

- `Text.collapse_append_congr`: texts may be collapsed part by part
- `Layout.Doc.collapse_write`, `Layout.Doc.collapse_render`: a document on a page, and on one line
-/

namespace Unsugar

/-! ## Runs of blanks -/

namespace Text

/-- The blanks that a layout writes. -/
def isBlank (c : Char) : Bool := c = ' ' || c = '\n'

/-- Puts a character in front of a text. A blank becomes a space, or nothing if a space follows. -/
def squeeze (c : Char) (cs : List Char) : List Char :=
  if isBlank c then
    if cs.head? = some ' ' then cs else ' ' :: cs
  else c :: cs

/-- Makes each run of blanks a single space. -/
def collapse (cs : List Char) : List Char := cs.foldr squeeze []

/-- A text with each run of blanks collapsed to a single space. -/
def collapseBlanks (s : String) : String := String.ofList (collapse s.toList)

/-- `squeeze` treats all blanks like a space. -/
theorem squeeze_of_isBlank {c : Char} (hc : isBlank c) (cs : List Char) :
    squeeze c cs = squeeze ' ' cs := by
  have hspace : isBlank ' ' := by decide
  simp only [squeeze, hc, hspace, if_true]

/-- `squeeze` puts any other character in front. -/
theorem squeeze_of_not_isBlank {c : Char} (hc : isBlank c = false) (cs : List Char) :
    squeeze c cs = c :: cs := by
  simp [squeeze, hc]

/-- `squeeze` of a second space changes nothing. -/
@[simp] theorem squeeze_squeeze (cs : List Char) : squeeze ' ' (squeeze ' ' cs) = squeeze ' ' cs := by
  by_cases h : cs.head? = some ' ' <;> simp [squeeze, isBlank, h]

/-- `squeeze` of a text in front of another: the text may be collapsed before. By induction on the
    text. -/
theorem foldr_squeeze_collapse (cs rest : List Char) :
    (collapse cs).foldr squeeze rest = cs.foldr squeeze rest := by
  induction cs with
  | nil => rfl
  | cons c cs ih =>
    have hcollapse : collapse (c :: cs) = squeeze c (collapse cs) := rfl
    rw [hcollapse, List.foldr_cons, ← ih]
    cases hc : isBlank c with
    | false => rw [squeeze_of_not_isBlank hc, List.foldr_cons]
    | true =>
      rw [squeeze_of_isBlank hc, squeeze_of_isBlank hc]
      by_cases hhead : (collapse cs).head? = some ' '
      · -- The run goes on, so the blank is one more in front of a space.
        obtain ⟨cs', hcs'⟩ := List.head?_eq_some_iff.1 hhead
        have hself : squeeze ' ' (collapse cs) = collapse cs := by simp [squeeze, isBlank, hhead]
        rw [hself, hcs', List.foldr_cons, squeeze_squeeze]
      · have hself : squeeze ' ' (collapse cs) = ' ' :: collapse cs := by
          simp [squeeze, isBlank, hhead]
        rw [hself, List.foldr_cons]

/-- `collapse` of appended texts: the first is put in front of the second, both collapsed. -/
theorem collapse_append (cs cs' : List Char) :
    collapse (cs ++ cs') = (collapse cs).foldr squeeze (collapse cs') := by
  rw [foldr_squeeze_collapse, collapse, List.foldr_append, collapse]

/-- `collapse` of appended texts depends on `collapse` of the parts only. -/
theorem collapse_append_congr {cs₁ cs₂ cs₁' cs₂' : List Char} (h : collapse cs₁ = collapse cs₂)
    (h' : collapse cs₁' = collapse cs₂') : collapse (cs₁ ++ cs₁') = collapse (cs₂ ++ cs₂') := by
  rw [collapse_append, collapse_append, h, h']

/-- `collapse` of a run of blanks is one space. -/
theorem collapse_cons_replicate (c : Char) (hc : isBlank c) (n : Nat) :
    collapse (c :: List.replicate n ' ') = [' '] := by
  induction n generalizing c with
  | zero => simp [collapse, squeeze, hc]
  | succ n ih =>
    have hstep : collapse (c :: List.replicate (n + 1) ' ') =
        squeeze c (collapse (' ' :: List.replicate n ' ')) := rfl
    rw [hstep, ih ' ' (by decide)]
    simp [squeeze, hc]

end Text

/-! ## Documents on a page -/

namespace Layout

open Text

/-- The characters of `String.pushn`. -/
theorem toList_pushn (s : String) (c : Char) (n : Nat) :
    (s.pushn c n).toList = s.toList ++ List.replicate n c := by
  induction n with
  | zero => simp [String.pushn, Nat.repeat]
  | succ n ih =>
    have hstep : s.pushn c (n + 1) = (s.pushn c n).push c := rfl
    rw [hstep, String.toList_push, ih, List.append_assoc, ← List.replicate_succ']

/-- The characters after `Page.newline`: a line break and the indentation. -/
theorem Page.toList_newline (p : Page) (column : Nat) :
    (p.newline column).text.toList = p.text.toList ++ '\n' :: List.replicate column ' ' := by
  simp [newline, toList_pushn]

namespace Doc

/-- A document on one line. -/
def flat : Doc → List Char
  | .nil => []
  | .text s _ => s.toList
  | .line => [' ']
  | .append a b => a.flat ++ b.flat
  | .nest _ d | .align d | .group d => d.flat

/-- `Doc.write` up to blanks: wherever lines are broken, the blanks are those that the document has on
    one line. By induction on the document. -/
theorem collapse_write (width : Nat) (flat : Bool) (indent after : Nat) (d : Doc) (p : Page) :
    collapse (d.write width flat indent after p).text.toList =
      collapse (p.text.toList ++ d.flat) := by
  induction d generalizing flat indent after p with
  | nil => simp [write, Doc.flat]
  | text s columns => simp [write, Page.write, Doc.flat]
  | line =>
    rw [write, Doc.flat]
    split
    · -- the line is not broken
      simp [Page.write]
    · -- a line break with its indentation is one run of blanks
      rw [Page.toList_newline]
      exact collapse_append_congr rfl (collapse_cons_replicate '\n' (by decide) indent)
  | append a b iha ihb =>
    rw [write, ihb, Doc.flat, ← List.append_assoc]
    exact collapse_append_congr (iha _ _ _ _) rfl
  | nest columns d ih | align d ih | group d ih =>
    rw [write, Doc.flat]
    exact ih _ _ _ _

/-- `Doc.render` up to blanks: the document on one line, with a blank at the end. -/
theorem collapse_render (width : Nat) (d : Doc) :
    collapse (d.render width).toList = collapse (d.flat ++ [' ']) :=
  collapse_write width false 0 0 (d ++ line) .blank

end Doc

end Layout

end Unsugar
