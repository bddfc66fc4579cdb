import Unsugar.Json.Reader
import Unsugar.Proofs.Json.Spelling

/-!
# Reading back printed JSON

Printing a value and reading the text gives the value back. The reader is a machine that takes tokens
one at a time, so the invariant is about a value with more tokens behind it: from a state that waits for
a value, the tokens of the value lead to the state that has just read it, whatever is still open around
it.

The nesting of a value is the largest number of brackets that are open at once in a text of it.

## Key results

- `Json.induct`: induction over values, with the hypothesis for every item and member
- `ofTokens?_tokens`: the tokens of a value are read as the value
- `parse?_of_spells`: so is every text that spells them
- `Token.deepest_tokensTo`: the nesting of a value is what its brackets add to those around it
-/

namespace Unsugar

/-- A property of all values follows if it passes from items to arrays and from members to objects. -/
theorem Json.induct {P : Json → Prop} (null : P .null) (bool : ∀ b, P (.bool b))
    (nat : ∀ n, P (.nat n)) (numeral : ∀ s, P (.numeral s)) (str : ∀ s, P (.str s))
    (arr : ∀ items, (∀ j ∈ items, P j) → P (.arr items))
    (obj : ∀ members, (∀ m ∈ members, P m.2) → P (.obj members)) (j : Json) : P j := by
  match j with
  | .null => exact null
  | .bool b => exact bool b
  | .nat n => exact nat n
  | .numeral s => exact numeral s
  | .str s => exact str s
  -- An item is smaller than the array, and the value of a member than the object.
  | .arr items => exact arr items fun j _ => Json.induct null bool nat numeral str arr obj j
  | .obj members => exact obj members fun m _ => Json.induct null bool nat numeral str arr obj m.2
termination_by sizeOf j
decreasing_by
  · have := List.sizeOf_lt_of_mem ‹j ∈ items›
    rw [Json.arr.sizeOf_spec]
    omega
  · have := List.sizeOf_lt_of_mem ‹m ∈ members›
    have : sizeOf m = 1 + sizeOf m.1 + sizeOf m.2 := rfl
    rw [Json.obj.sizeOf_spec]
    omega

namespace Json

/-- `itemTokensTo` of two items or more has a comma between them. -/
theorem itemTokensTo_cons_cons (item next : Json) (items : List Json) (rest : List Token) :
    itemTokensTo (item :: next :: items) rest =
      item.tokensTo (.comma :: itemTokensTo (next :: items) rest) := by
  rw [itemTokensTo]
  exact List.cons_ne_nil next items

/-- `memberTokensTo` of two members or more has a comma between them. -/
theorem memberTokensTo_cons_cons (key : Option String) (value : Json)
    (next : Option String × Json) (members : List (Option String × Json)) (rest : List Token) :
    memberTokensTo ((key, value) :: next :: members) rest =
      .str key :: .colon :: value.tokensTo (.comma :: memberTokensTo (next :: members) rest) := by
  rw [memberTokensTo]
  exact List.cons_ne_nil next members

/-! ## Tokens to values -/

namespace ReadState

theorem foldlM_step_cons {s s' : ReadState} {t : Token} {ts : List Token} (h : s.step t = some s') :
    (t :: ts).foldlM step s = ts.foldlM step s' := by
  rw [List.foldlM_cons, h]
  rfl

/-- A state in which a value may start. -/
def AwaitsValue (s : ReadState) : Prop :=
  ∀ t, t ≠ .closeArr → s.step t = beginValue s.stack t

theorem awaitsValue_value (stack : List Frame) : AwaitsValue ⟨stack, .value⟩ :=
  fun _ _ => rfl

/-- `Expect.firstItem` awaits a value, or the bracket that closes an empty array. -/
theorem awaitsValue_firstItem (stack : List Frame) : AwaitsValue ⟨stack, .firstItem⟩ := by
  intro t ht
  cases t with
  | closeArr => exact absurd rfl ht
  | _ => rfl

/-- From a state in which a value may start, the tokens of the value lead to the state after it. -/
def Reads (j : Json) : Prop :=
  ∀ (s : ReadState) (rest : List Token), s.AwaitsValue →
    (j.tokensTo rest).foldlM step s = rest.foldlM step ⟨s.stack, .after j⟩

/-- `step` over `itemTokensTo`: items are added to those read before. By induction on the items. -/
theorem foldlM_itemTokensTo {items : List Json} (hitems : ∀ j ∈ items, Reads j) (hne : items ≠ [])
    (stack : List Frame) (read : List Json) {e : Expect} (he : AwaitsValue ⟨.arr read :: stack, e⟩)
    (rest : List Token) :
    (itemTokensTo items (.closeArr :: rest)).foldlM step ⟨.arr read :: stack, e⟩ =
      rest.foldlM step ⟨stack, .after (.arr (read.reverse ++ items))⟩ := by
  induction items generalizing read e with
  | nil => exact absurd rfl hne
  | cons item items ih =>
    have hitem := hitems item List.mem_cons_self
    cases items with
    | nil =>
      -- The bracket closes the array behind its last item.
      rw [itemTokensTo, hitem _ _ he, foldlM_step_cons rfl, List.reverse_cons]
    | cons next items =>
      -- The comma adds the item to those read, and the next one may start.
      have hrest := ih (fun j hj => hitems j (List.mem_cons_of_mem _ hj)) (List.cons_ne_nil _ _)
        (item :: read) (awaitsValue_value _)
      rw [itemTokensTo_cons_cons, hitem _ _ he, foldlM_step_cons rfl, hrest, List.reverse_cons,
        List.append_assoc, List.singleton_append]

/-- `step` over `memberTokensTo`: members are added to those read before. By induction on the members.
    -/
theorem foldlM_memberTokensTo {members : List (Option String × Json)}
    (hmembers : ∀ m ∈ members, Reads m.2) (hne : members ≠ []) (stack : List Frame)
    (read : List (Option String × Json)) {e : Expect}
    (he : ∀ key, step ⟨stack, e⟩ (.str key) = some ⟨stack, .colon read key⟩) (rest : List Token) :
    (memberTokensTo members (.closeObj :: rest)).foldlM step ⟨stack, e⟩ =
      rest.foldlM step ⟨stack, .after (.obj (read.reverse ++ members))⟩ := by
  induction members generalizing read e with
  | nil => exact absurd rfl hne
  | cons member members ih =>
    obtain ⟨key, value⟩ := member
    have hvalue := hmembers (key, value) List.mem_cons_self
    cases members with
    | nil =>
      rw [memberTokensTo, foldlM_step_cons (he key), foldlM_step_cons rfl,
        hvalue _ _ (awaitsValue_value _), foldlM_step_cons rfl, List.reverse_cons]
    | cons next members =>
      -- The comma adds the member to those read, and the key of the next one is expected.
      have hrest := ih (fun m hm => hmembers m (List.mem_cons_of_mem _ hm)) (List.cons_ne_nil _ _)
        ((key, value) :: read) (e := .key ((key, value) :: read)) (fun _ => rfl)
      rw [memberTokensTo_cons_cons, foldlM_step_cons (he key), foldlM_step_cons rfl,
        hvalue _ _ (awaitsValue_value _), foldlM_step_cons rfl, hrest, List.reverse_cons,
        List.append_assoc, List.singleton_append]

/-- `Reads` holds of every value. Empty arrays and objects close in the state that waits for their
    first part. -/
theorem reads (j : Json) : Reads j := by
  induction j using Json.induct with
  | null | bool | nat | numeral | str =>
    intro s rest hs
    exact foldlM_step_cons (hs _ nofun)
  | arr items ih =>
    intro s rest hs
    -- The bracket opens a frame; an empty array closes it at once.
    rw [tokensTo, foldlM_step_cons (hs .openArr nofun)]
    cases items with
    | nil => rfl
    | cons item items =>
      exact foldlM_itemTokensTo ih (List.cons_ne_nil _ _) s.stack [] (awaitsValue_firstItem _) rest
  | obj members ih =>
    intro s rest hs
    -- No frame is opened before the first key and its colon.
    rw [tokensTo, foldlM_step_cons (hs .openObj nofun)]
    cases members with
    | nil => rfl
    | cons member members =>
      exact foldlM_memberTokensTo ih (List.cons_ne_nil _ _) s.stack [] (fun _ => rfl) rest

end ReadState

/-- `ofTokens?` of the tokens of a value is the value. -/
theorem ofTokens?_tokens (j : Json) : ofTokens? j.tokens = some j := by
  have hstart : ReadState.start.AwaitsValue := ReadState.awaitsValue_value []
  -- Nothing is open around the value, and no token is left.
  rw [ofTokens?, tokens, ReadState.reads j _ _ hstart]
  rfl

/-! ## Texts to values -/

/-- A value whose numerals are spelt as numerals are. -/
inductive WellSpelt : Json → Prop where
  | null : WellSpelt .null
  | bool (b : Bool) : WellSpelt (.bool b)
  | nat (n : Nat) : WellSpelt (.nat n)
  | numeral {s : String} (h : (Token.numeral s).WellSpelt) : WellSpelt (.numeral s)
  | str (s : Option String) : WellSpelt (.str s)
  | arr {items : List Json} (h : ∀ j ∈ items, WellSpelt j) : WellSpelt (.arr items)
  | obj {members : List (Option String × Json)} (h : ∀ m ∈ members, WellSpelt m.2) :
      WellSpelt (.obj members)

theorem WellSpelt.variant {tag : String} {payload : Json} (h : payload.WellSpelt) :
    (Json.variant tag payload).WellSpelt :=
  .obj (List.forall_mem_singleton.2 h)

/-- `itemTokensTo` is `Scannable` if the tokens of each item are. -/
theorem scannable_itemTokensTo {items : List Json} {rest : List Token}
    (hitems : ∀ j ∈ items, ∀ rest, Token.Scannable rest →
      (∀ t ∈ rest.head?, t.isNumber = false) → Token.Scannable (j.tokensTo rest))
    (hrest : Token.Scannable rest) (hhead : ∀ t ∈ rest.head?, t.isNumber = false) :
    Token.Scannable (itemTokensTo items rest) := by
  induction items with
  | nil => exact hrest
  | cons item items ih =>
    have hitem := hitems item List.mem_cons_self
    cases items with
    | nil => exact hitem rest hrest hhead
    | cons next items =>
      have hnext := ih fun j hj => hitems j (List.mem_cons_of_mem _ hj)
      rw [itemTokensTo_cons_cons]
      -- Behind each item but the last comes a comma, which is no number.
      exact hitem _ (.cons trivial nofun hnext) (by simp [Token.isNumber])

/-- `memberTokensTo` is `Scannable` if the tokens of each value are. -/
theorem scannable_memberTokensTo {members : List (Option String × Json)} {rest : List Token}
    (hmembers : ∀ m ∈ members, ∀ rest, Token.Scannable rest →
      (∀ t ∈ rest.head?, t.isNumber = false) → Token.Scannable (m.2.tokensTo rest))
    (hrest : Token.Scannable rest) (hhead : ∀ t ∈ rest.head?, t.isNumber = false) :
    Token.Scannable (memberTokensTo members rest) := by
  induction members with
  | nil => exact hrest
  | cons member members ih =>
    obtain ⟨key, value⟩ := member
    have hvalue := hmembers (key, value) List.mem_cons_self
    cases members with
    | nil => exact .cons trivial nofun (.cons trivial nofun (hvalue rest hrest hhead))
    | cons next members =>
      have hnext := ih fun m hm => hmembers m (List.mem_cons_of_mem _ hm)
      rw [memberTokensTo_cons_cons]
      exact .cons trivial nofun (.cons trivial nofun
        (hvalue _ (.cons trivial nofun hnext) (by simp [Token.isNumber])))

/-- `tokensTo` is `Scannable`: in a value a number is followed by a comma or a bracket. -/
theorem WellSpelt.scannable_tokensTo {j : Json} (hj : j.WellSpelt) :
    ∀ rest, Token.Scannable rest → (∀ t ∈ rest.head?, t.isNumber = false) →
      Token.Scannable (j.tokensTo rest) := by
  induction hj with
  -- a single token, with what follows as it is
  | null | bool | nat | str => exact fun rest hrest hhead => .cons trivial (fun _ => hhead) hrest
  | numeral h => exact fun rest hrest hhead => .cons h (fun _ => hhead) hrest
  | arr h ih =>
    -- Behind the last item comes the bracket, which is no number.
    intro rest hrest hhead
    exact .cons trivial nofun
      (scannable_itemTokensTo ih (.cons trivial nofun hrest) (by simp [Token.isNumber]))
  | obj h ih =>
    intro rest hrest hhead
    exact .cons trivial nofun
      (scannable_memberTokensTo ih (.cons trivial nofun hrest) (by simp [Token.isNumber]))

theorem WellSpelt.scannable {j : Json} (hj : j.WellSpelt) : Token.Scannable j.tokens :=
  hj.scannable_tokensTo [] .nil (by simp)

/-- `parse?` of a text that spells the tokens of a value is the value. -/
theorem parse?_of_spells {j : Json} (hj : j.WellSpelt) {text : String}
    (h : Token.Spells text.toList j.tokens) : parse? text = some j := by
  rw [parse?, h.scan hj.scannable]
  exact ofTokens?_tokens j

/-! ## Nesting -/

/-- The most brackets that are open at once, when `depth` are open before the first token. -/
def Token.deepest (depth : Nat) : List Token → Nat
  | [] => depth
  | t :: ts => max depth (deepest (t.depthAfter depth) ts)

/-- How deep the arrays and objects of a text nest; `none` if it cannot be split into tokens. -/
def textNesting? (text : String) : Option Nat :=
  (Token.scan text.toList).map (Token.deepest 0)

mutual

/-- How deep the arrays and objects of a value nest. -/
def nesting : Json → Nat
  | .null | .bool _ | .nat _ | .numeral _ | .str _ => 0
  | .arr items => itemNesting items + 1
  | .obj members => memberNesting members + 1

/-- How deep the deepest of items nests. -/
def itemNesting : List Json → Nat
  | [] => 0
  | item :: items => max item.nesting (itemNesting items)

/-- How deep the deepest value of members nests. -/
def memberNesting : List (Option String × Json) → Nat
  | [] => 0
  | (_, value) :: members => max value.nesting (memberNesting members)

end

@[simp] theorem itemNesting_cons (item : Json) (items : List Json) :
    itemNesting (item :: items) = max item.nesting (itemNesting items) := rfl

@[simp] theorem memberNesting_cons (member : Option String × Json)
    (members : List (Option String × Json)) :
    memberNesting (member :: members) = max member.2.nesting (memberNesting members) := rfl

/-- `itemNesting` is bounded by what bounds each item. -/
theorem itemNesting_le_iff {items : List Json} {n : Nat} :
    itemNesting items ≤ n ↔ ∀ j ∈ items, j.nesting ≤ n := by
  induction items with
  | nil => simp [itemNesting]
  | cons item items ih => rw [itemNesting_cons, Nat.max_le, ih, List.forall_mem_cons]

/-- `variant` nests one deeper than its payload. -/
theorem nesting_variant (tag : String) (payload : Json) :
    (variant tag payload).nesting = payload.nesting + 1 := by
  simp [variant, nesting, memberNesting]

namespace Token

/-- `deepest` counts the brackets that are open before. -/
theorem le_deepest (depth : Nat) (ts : List Token) : depth ≤ deepest depth ts := by
  cases ts with
  | nil => exact Nat.le_refl depth
  | cons t ts => exact Nat.le_max_left _ _

/-- `deepest` does not count tokens that open and close nothing. -/
theorem deepest_cons {depth : Nat} {t : Token} (ht : t.depthAfter depth = depth) (ts : List Token) :
    deepest depth (t :: ts) = deepest depth ts := by
  rw [deepest, ht]
  exact Nat.max_eq_right (le_deepest depth ts)

/-- `deepest` over the tokens of items, by induction on the items. -/
theorem deepest_itemTokensTo {items : List Json}
    (hitems : ∀ j ∈ items, ∀ depth rest,
      deepest depth (j.tokensTo rest) = max (depth + j.nesting) (deepest depth rest))
    (depth : Nat) (rest : List Token) :
    deepest depth (itemTokensTo items rest) =
      max (depth + itemNesting items) (deepest depth rest) := by
  have hle := le_deepest depth rest
  induction items with
  | nil => simp [itemTokensTo, itemNesting, hle]
  | cons item items ih =>
    have hitem := hitems item List.mem_cons_self
    cases items with
    | nil => simp [itemTokensTo, itemNesting, hitem]
    | cons next items =>
      have hnext := ih fun j hj => hitems j (List.mem_cons_of_mem _ hj)
      -- The maximum is taken over the item, and then over the rest.
      rw [itemTokensTo_cons_cons, hitem, deepest_cons rfl, hnext, itemNesting_cons item]
      omega

/-- `deepest` over the tokens of members, by induction on the members. -/
theorem deepest_memberTokensTo {members : List (Option String × Json)}
    (hmembers : ∀ m ∈ members, ∀ depth rest,
      deepest depth (m.2.tokensTo rest) = max (depth + m.2.nesting) (deepest depth rest))
    (depth : Nat) (rest : List Token) :
    deepest depth (memberTokensTo members rest) =
      max (depth + memberNesting members) (deepest depth rest) := by
  have hle := le_deepest depth rest
  induction members with
  | nil => simp [memberTokensTo, memberNesting, hle]
  | cons member members ih =>
    obtain ⟨key, value⟩ := member
    have hvalue := hmembers (key, value) List.mem_cons_self
    cases members with
    | nil =>
      rw [memberTokensTo, deepest_cons rfl, deepest_cons rfl, hvalue]
      simp [memberNesting]
    | cons next members =>
      have hnext := ih fun m hm => hmembers m (List.mem_cons_of_mem _ hm)
      -- Keys, colons and commas open nothing.
      rw [memberTokensTo_cons_cons, deepest_cons rfl, deepest_cons rfl, hvalue, deepest_cons rfl,
        hnext, memberNesting_cons (key, value)]
      omega

/-- `deepest` over the tokens of a value: its brackets come on top of those around it, and are all
    closed behind it. -/
theorem deepest_tokensTo (j : Json) : ∀ depth rest,
    deepest depth (j.tokensTo rest) = max (depth + j.nesting) (deepest depth rest) := by
  induction j using Json.induct with
  | null | bool | nat | numeral | str => exact fun depth rest => rfl
  | arr items ih =>
    intro depth rest
    -- One bracket more is open for the items, and it is closed again behind them.
    have hopen : depthAfter depth .openArr = depth + 1 := rfl
    have hclose : depthAfter (depth + 1) .closeArr = depth := rfl
    rw [tokensTo, deepest, hopen, deepest_itemTokensTo ih, deepest, hclose, nesting]
    omega
  | obj members ih =>
    intro depth rest
    have hopen : depthAfter depth .openObj = depth + 1 := rfl
    have hclose : depthAfter (depth + 1) .closeObj = depth := rfl
    rw [tokensTo, deepest, hopen, deepest_memberTokensTo ih, deepest, hclose, nesting]
    omega

end Token

/-- `textNesting?` of a text that spells the tokens of a value is the nesting of the value. -/
theorem textNesting?_of_spells {j : Json} (hj : j.WellSpelt) {text : String}
    (h : Token.Spells text.toList j.tokens) : textNesting? text = some j.nesting := by
  rw [textNesting?, h.scan hj.scannable, Option.map_some, tokens, Token.deepest_tokensTo]
  simp [Token.deepest]

end Json

end Unsugar
