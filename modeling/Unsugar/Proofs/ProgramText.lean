import Mathlib
import Unsugar.Command.Run
import Unsugar.Proofs.Json.Reading
import Unsugar.Proofs.Occurrence

/-!
# Programs read back from their text

A program that is written as JSON, on one line or on many, is read back as the same program if its text
nests no deeper than a decoder goes, and is refused otherwise. The decoder is given the number of levels
it may still enter; a variant takes one of them and an array of operands another, so a term is decoded
exactly when the levels suffice for its JSON form and its indices are words.

## Key results

- `Term.ofJson?_toJson`: when a term is decoded from its JSON form
- `Program.ofJson?_toJson`: the same of programs
- `parse?_render`: the round trip through either text
-/

namespace Unsugar

/-- `mapM decode` over encoded items, each of which is decoded to what was encoded or not at all. -/
theorem mapM_map_eq_ite {α β : Type} {encode : α → β} {decode : β → Option α} {p : α → Prop}
    [DecidablePred p] {xs : List α}
    (h : ∀ x ∈ xs, decode (encode x) = if p x then some x else none) :
    (xs.map encode).mapM decode = if ∀ x ∈ xs, p x then some xs else none := by
  induction xs with
  | nil => simp
  | cons x xs ih =>
    have hx := h x List.mem_cons_self
    have hxs := ih fun y hy => h y (List.mem_cons_of_mem _ hy)
    rw [List.map_cons, List.mapM_cons, hx, hxs]
    by_cases hp : p x
    · -- the first item is decoded, and the others decide
      by_cases hps : ∀ y ∈ xs, p y
      · rw [if_pos hp, if_pos hps, if_pos (List.forall_mem_cons.2 ⟨hp, hps⟩)]
        rfl
      · rw [if_pos hp, if_neg hps, if_neg fun h => hps (List.forall_mem_cons.1 h).2]
        rfl
    · -- the first item is refused, and so is the list
      rw [if_neg hp, if_neg fun h => hp (List.forall_mem_cons.1 h).1]
      rfl

namespace Term

/-- The index of a leaf. -/
def index? : Term → Option Nat
  | .var i | .lit i | .effect i => some i
  | _ => none

/-- The indices of variables, literals and effects in a term from left to right. -/
def indices (t : Term) : List Nat := t.leaves.filterMap index?

/-- A term that can be decoded from its JSON form by a decoder that may enter `budget` levels. -/
def Decodable (budget : Nat) (t : Term) : Prop :=
  t.toJson.nesting ≤ budget ∧ ∀ i ∈ t.indices, i < 2 ^ 64

instance (budget : Nat) (t : Term) : Decidable (t.Decodable budget) :=
  inferInstanceAs (Decidable (_ ∧ _))

/-- `ofJson?` of a variant: the first level that the decoder enters. -/
theorem ofJson?_variant (budget : Nat) (tag : String) (payload : Json) :
    ofJson? (budget + 1) (.variant tag payload) =
      variantOfJson? budget (ofJson? budget) (ofJson? (budget - 1)) tag payload := by
  cases budget with
  | zero =>
    have hnone : ofJson? 0 = fun _ => none := rfl
    rw [hnone]
    rfl
  | succ budget => rfl

/-- `ofJson?` of a leaf: there is room for its variant, and its index is a word. -/
theorem ofJson?_leaf (tag : String) (form : Nat → Term) (i : Nat)
    (hjson : (form i).toJson = .variant tag (.nat i)) (hindices : (form i).indices = [i])
    (htag : ∀ budget inner innermost payload,
      variantOfJson? budget inner innermost tag payload = (payload.word? 64).map form)
    (budget : Nat) :
    ofJson? budget (form i).toJson =
      if (form i).Decodable budget then some (form i) else none := by
  have hdecodable : (form i).Decodable budget ↔ 1 ≤ budget ∧ i < 2 ^ 64 := by
    rw [Decodable, hindices, hjson, Json.nesting_variant, Json.nesting, List.forall_mem_singleton]
  rw [if_congr hdecodable rfl rfl, hjson]
  cases budget with
  | zero => simp [ofJson?]
  | succ budget =>
    rw [ofJson?_variant, htag]
    simp [Json.word?]

/-- `ofJson?` of a form with one part: the part is decoded with one level less. -/
theorem ofJson?_wrapper (tag : String) (form : Term → Term) {t : Term}
    (hjson : (form t).toJson = .variant tag t.toJson) (hindices : (form t).indices = t.indices)
    (htag : ∀ budget inner innermost payload,
      variantOfJson? budget inner innermost tag payload = (inner payload).map form)
    (ih : ∀ budget, ofJson? budget t.toJson = if t.Decodable budget then some t else none)
    (budget : Nat) :
    ofJson? budget (form t).toJson =
      if (form t).Decodable budget then some (form t) else none := by
  cases budget with
  | zero => simp [ofJson?, Decodable, hjson, Json.nesting_variant]
  | succ budget =>
    have hdecodable : (form t).Decodable (budget + 1) ↔ t.Decodable budget := by
      rw [Decodable, hindices, hjson, Json.nesting_variant, Nat.add_le_add_iff_right, Decodable]
    rw [if_congr hdecodable rfl rfl, hjson, ofJson?_variant, htag, ih]
    by_cases ht : t.Decodable budget <;> simp [ht]

/-- `ofJson?` of a form with several parts: they are all decoded with two levels less. -/
theorem ofJson?_operands (tag : String) (ts : List Term) {t : Term}
    (hjson : t.toJson = .variant tag (.arr (ts.map toJson)))
    (hindices : t.indices = ts.flatMap indices) (hform : ofOperands? tag ts = some t)
    (htag : ∀ budget inner innermost payload, variantOfJson? budget inner innermost tag payload =
      (payload.items? budget innermost).bind (ofOperands? tag))
    (ih : ∀ u ∈ ts, ∀ budget,
      ofJson? budget u.toJson = if u.Decodable budget then some u else none)
    (budget : Nat) :
    ofJson? budget t.toJson = if t.Decodable budget then some t else none := by
  have hnesting : t.toJson.nesting = Json.itemNesting (ts.map toJson) + 2 := by
    rw [hjson, Json.nesting_variant, Json.nesting]
  rcases budget with _ | _ | budget
  · simp [ofJson?, Decodable, hnesting]
  · -- There is room for the variant, but not for the array in it.
    rw [if_neg (by simp [Decodable, hnesting]), hjson, ofJson?_variant, htag, Json.items?,
      if_pos rfl, Option.bind_none]
  · -- There is room for both; the parts decide.
    have hdecodable : t.Decodable (budget + 2) ↔ ∀ u ∈ ts, u.Decodable budget := by
      rw [Decodable, hindices, hnesting, Nat.add_le_add_iff_right, Json.itemNesting_le_iff]
      simp only [List.forall_mem_map, List.mem_flatMap, Decodable]
      constructor
      · intro h u hu
        exact ⟨h.1 u hu, fun i hi => h.2 i ⟨u, hu, hi⟩⟩
      · intro h
        refine ⟨fun u hu => (h u hu).1, ?_⟩
        intro i hi
        obtain ⟨u, hu, hi⟩ := hi
        exact (h u hu).2 i hi
    rw [if_congr hdecodable rfl rfl, hjson, ofJson?_variant, htag, Json.items?,
      if_neg (Nat.succ_ne_zero budget), Nat.add_sub_cancel,
      mapM_map_eq_ite fun u hu => ih u hu budget]
    by_cases hts : ∀ u ∈ ts, u.Decodable budget
    · rw [if_pos hts, if_pos hts, Option.bind_some, hform]
    · rw [if_neg hts, if_neg hts, Option.bind_none]

/-- `ofJson?` of `toJson`: a term is decoded exactly if the levels suffice and its indices are words.
    By induction on the term. -/
theorem ofJson?_toJson (t : Term) (budget : Nat) :
    ofJson? budget t.toJson = if t.Decodable budget then some t else none := by
  induction t generalizing budget with
  -- constructors that hold an index
  | var i => exact ofJson?_leaf "var" .var i rfl rfl (fun _ _ _ _ => rfl) budget
  | lit i => exact ofJson?_leaf "lit" .lit i rfl rfl (fun _ _ _ _ => rfl) budget
  | effect i => exact ofJson?_leaf "effect" .effect i rfl rfl (fun _ _ _ _ => rfl) budget
  -- constructors that hold one term
  | abs b ih => exact ofJson?_wrapper "abs" .abs rfl rfl (fun _ _ _ _ => rfl) ih budget
  | fix b ih => exact ofJson?_wrapper "rec" .fix rfl rfl (fun _ _ _ _ => rfl) ih budget
  | typeOf v ih => exact ofJson?_wrapper "type_of" .typeOf rfl rfl (fun _ _ _ _ => rfl) ih budget
  | app f x ihf ihx =>
    -- constructors that hold a list of terms
    refine ofJson?_operands "app" [f, x] rfl ?_ rfl (fun _ _ _ _ => rfl) ?_ budget
    · simp [indices, leaves]
    · simpa using ⟨ihf, ihx⟩
  | unpack v c o ihv ihc iho =>
    refine ofJson?_operands "unpack" [v, c, o] rfl ?_ rfl (fun _ _ _ _ => rfl) ?_ budget
    · simp [indices, leaves]
    · simpa using ⟨ihv, ihc, iho⟩
  | handle b h ihb ihh =>
    refine ofJson?_operands "handle" [b, h] rfl ?_ rfl (fun _ _ _ _ => rfl) ?_ budget
    · simp [indices, leaves]
    · simpa using ⟨ihb, ihh⟩
  | compare l r e o ihl ihr ihe iho =>
    refine ofJson?_operands "compare" [l, r, e, o] rfl ?_ rfl (fun _ _ _ _ => rfl) ?_ budget
    · simp [indices, leaves]
    · simpa using ⟨ihl, ihr, ihe, iho⟩

/-- `toJson` of a term is `WellSpelt`: its only numbers are indices. -/
theorem wellSpelt_toJson (t : Term) : t.toJson.WellSpelt := by
  induction t with
  | var i | lit i | effect i => exact .variant (.nat i)
  | abs b ih | fix b ih | typeOf b ih => exact .variant ih
  | app f x ihf ihx => exact .variant (.arr (by simpa using ⟨ihf, ihx⟩))
  | unpack v c o ihv ihc iho => exact .variant (.arr (by simpa using ⟨ihv, ihc, iho⟩))
  | handle b h ihb ihh => exact .variant (.arr (by simpa using ⟨ihb, ihh⟩))
  | compare l r e o ihl ihr ihe iho =>
    exact .variant (.arr (by simpa using ⟨ihl, ihr, ihe, iho⟩))

end Term

namespace Literal

/-- `toJson` of a literal is one level deep. -/
theorem nesting_toJson (l : Literal) : l.toJson.nesting = 1 := by
  cases l <;> rfl

/-- `ofJson?` of `toJson` of a literal: there is room for its variant. -/
theorem ofJson?_toJson (l : Literal) (budget : Nat) :
    ofJson? budget l.toJson = if l.toJson.nesting ≤ budget then some l else none := by
  rw [nesting_toJson]
  cases budget with
  | zero => rfl
  | succ budget => cases l <;> simp [ofJson?, toJson, Json.variant, Json.variant?, Json.ofText,
      Json.text?]

/-- `toJson` of a literal is `WellSpelt`: it holds a text and no number. -/
theorem wellSpelt_toJson (l : Literal) : l.toJson.WellSpelt := by
  cases l with
  | atom name => exact .variant (.str (some name))
  | text content => exact .variant (.str (some content))

/-- `items?` of the literals of a program: there is room for the array and for the variants in it. -/
theorem items?_toJson (ls : List Literal) (budget : Nat) :
    (Json.arr (ls.map toJson)).items? budget (ofJson? (budget - 1)) =
      if (Json.arr (ls.map toJson)).nesting ≤ budget then some ls else none := by
  cases budget with
  | zero => rfl
  | succ budget =>
    have hnesting : (Json.arr (ls.map toJson)).nesting ≤ budget + 1 ↔
        ∀ l ∈ ls, l.toJson.nesting ≤ budget := by
      rw [Json.nesting, Nat.add_le_add_iff_right, Json.itemNesting_le_iff, List.forall_mem_map]
    rw [if_congr hnesting rfl rfl, Json.items?, if_neg (Nat.succ_ne_zero budget), Nat.add_sub_cancel,
      mapM_map_eq_ite fun l _ => ofJson?_toJson l budget]

end Literal

namespace Program

/-- `ofJson?` of `toJson` of a program: it is decoded exactly if the levels suffice and its indices are
    words. -/
theorem ofJson?_toJson (p : Program) (budget : Nat) :
    ofJson? budget p.toJson =
      if p.toJson.nesting ≤ budget ∧ ∀ i ∈ p.term.indices, i < 2 ^ 64 then some p else none := by
  let literals := Json.arr (p.literals.map Literal.toJson)
  have hnesting : p.toJson.nesting = max p.term.toJson.nesting literals.nesting + 1 := by
    simp [toJson, literals, Json.object, Json.nesting, Json.memberNesting]
  cases budget with
  | zero => simp [ofJson?, hnesting]
  | succ budget =>
    have hrecord : p.toJson.record? ["expr", "literals"] =
        some [some p.term.toJson, some literals] := rfl
    have hdecode : ofJson? (budget + 1) p.toJson =
        (Term.ofJson? budget p.term.toJson).bind fun term =>
          (literals.items? budget (Literal.ofJson? (budget - 1))).bind fun ls => some ⟨term, ls⟩ := by
      rw [ofJson?, if_neg (Nat.succ_ne_zero budget), hrecord]
      rfl
    have hfits : (p.toJson.nesting ≤ budget + 1 ∧ ∀ i ∈ p.term.indices, i < 2 ^ 64) ↔
        p.term.Decodable budget ∧ literals.nesting ≤ budget := by
      rw [hnesting, Nat.add_le_add_iff_right, Nat.max_le, Term.Decodable, and_right_comm]
    -- Each part has all levels but the one of the record.
    rw [if_congr hfits rfl rfl, hdecode, Term.ofJson?_toJson, Literal.items?_toJson]
    by_cases hterm : p.term.Decodable budget
    · by_cases hliterals : literals.nesting ≤ budget
      · rw [if_pos hterm, if_pos hliterals, if_pos ⟨hterm, hliterals⟩]
        rfl
      · rw [if_pos hterm, if_neg hliterals, if_neg fun h => hliterals h.2]
        rfl
    · have hneither : ¬ (p.term.Decodable budget ∧ literals.nesting ≤ budget) := fun h => hterm h.1
      rw [if_neg hterm, if_neg hneither, Option.bind_none]

/-- `toJson` of a program is `WellSpelt`, as its term and its literals are. -/
theorem wellSpelt_toJson (p : Program) : p.toJson.WellSpelt := by
  have hliterals : (Json.arr (p.literals.map Literal.toJson)).WellSpelt :=
    .arr (List.forall_mem_map.2 fun l _ => l.wellSpelt_toJson)
  exact .obj (by simpa [Json.object] using ⟨p.term.wellSpelt_toJson, hliterals⟩)

/-- `compact` and `render` of a program both spell the tokens of its JSON form. -/
theorem spells_text (p : Program) {o : Options} (ho : o.format = .json) :
    ∀ text ∈ [p.toJson.compact, p.render o], Json.Token.Spells text.toList p.toJson.tokens := by
  intro text htext
  rw [List.mem_cons, List.mem_singleton] at htext
  rcases htext with rfl | rfl
  · exact Json.Token.spells_text p.toJson.tokens
  · rw [render, ho, String.toList_append]
    exact Json.Token.spells_indentedParts 0 p.toJson.tokens (List.forall_mem_singleton.2 rfl)

end Program

/-- `parse?` of `compact` and of `render`: a program is read back from its JSON text exactly if the
    text nests at most 127 deep (and the indices are words); otherwise the text is refused. -/
theorem parse?_render (p : Program) (o : Options) (ho : o.format = .json) :
    ∀ text ∈ [p.toJson.compact, p.render o],
      Json.textNesting? text = some p.toJson.nesting ∧
      Program.parse? text =
        if p.toJson.nesting ≤ 127 ∧ ∀ i ∈ p.term.indices, i < 2 ^ 64 then some p else none := by
  intro text htext
  have hspells := p.spells_text ho text htext
  refine ⟨Json.textNesting?_of_spells p.wellSpelt_toJson hspells, ?_⟩
  rw [Program.parse?, Json.parse?_of_spells p.wellSpelt_toJson hspells]
  exact p.ofJson?_toJson 127

/-- With 127 levels a program is read back, its quotes, backslashes and control characters included;
    with one more it is refused. -/
theorem parse?_render_boundary :
    let p (n : Nat) : Program :=
      ⟨(Term.compare (.var 0) (.lit 0) (.effect 1) (.typeOf (.fix (.var 2)))).abstracted n,
        [.text "a\"b\\c\n\x00\x1f\x7f é😀", .atom "print!", .text ""]⟩
    let o : Options := { format := .json }
    Json.textNesting? ((p 121).render o) = some 127 ∧
      Program.parse? (p 121).toJson.compact = some (p 121) ∧
      Program.parse? ((p 121).render o) = some (p 121) ∧
      Json.textNesting? ((p 122).render o) = some 128 ∧
      Program.parse? (p 122).toJson.compact = none ∧
      Program.parse? ((p 122).render o) = none := by
  intro p o
  have hread : (p 121).toJson.nesting = 127 ∧ ∀ i ∈ (p 121).term.indices, i < 2 ^ 64 := by
    decide +kernel
  have hdeep : (p 122).toJson.nesting = 128 := by decide +kernel
  have hread' := parse?_render (p 121) o rfl
  have hdeep' := parse?_render (p 122) o rfl
  rw [List.forall_mem_cons, List.forall_mem_singleton, if_pos ⟨hread.1.le, hread.2⟩, hread.1] at hread'
  rw [List.forall_mem_cons, List.forall_mem_singleton, if_neg (by rw [hdeep]; simp), hdeep] at hdeep'
  exact ⟨hread'.2.1, hread'.1.2, hread'.2.2, hdeep'.2.1, hdeep'.1.2, hdeep'.2.2⟩

end Unsugar
