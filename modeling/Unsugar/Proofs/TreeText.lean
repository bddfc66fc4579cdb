import Mathlib
import Unsugar.Proofs.Json.Reading
import Unsugar.Syntax.Codec

/-!
# Trees read back from their text

A tree may be written in many ways: a record as an object or as an array, with its members in any
order and others beside them, a consumer as a word, as a variant or not at all. What is decoded has one
form. `Json.ReadsBack` says of a decoder that it accepts this form of everything it ever returns and
returns the same again. It passes from the decoders of the parts to that of the whole with the budgets
unchanged: no other form of a node nests less deeply than its own.

## Key results

- `Json.ReadsBack.items?`: the property passes to arrays
- `Node.readsBack_recordOfJson?`: and from the decoders of the nodes further in to that of a node
- `Node.readsBack_ofJson?`: so the decoder of every budget has it
- `parseTree?_listToJson`: both printed texts of a decoded tree are decoded to it
-/

namespace Unsugar

namespace Json

/-- A decoder that accepts the encoding of everything it returns, and returns the same from it. -/
def ReadsBack {α : Type} (encode : α → Json) (decode : Json → Option α) : Prop :=
  ∀ j a, decode j = some a → decode (encode a) = some a

namespace ReadsBack

/-- `ReadsBack` of a decoder that accepts nothing. -/
theorem of_eq_none {α : Type} (encode : α → Json) {decode : Json → Option α}
    (h : ∀ j, decode j = none) : ReadsBack encode decode := by
  intro j a hj
  rw [h] at hj
  cases hj

/-- `word?` reads back the numbers that it accepts. -/
theorem word? (bits : Nat) : ReadsBack .nat (word? bits) := by
  intro j n h
  unfold Json.word? at h
  split at h
  · rename_i m
    split at h
    · rename_i hm
      cases h
      exact if_pos hm
    · cases h
  · cases h

/-- `ReadsBack` item by item, by induction on what was decoded. -/
theorem mapM {α : Type} {encode : α → Json} {decode : Json → Option α}
    (h : ReadsBack encode decode) {js : List Json} {as : List α} (hjs : js.mapM decode = some as) :
    (as.map encode).mapM decode = some as := by
  induction js generalizing as with
  | nil =>
    cases hjs
    rfl
  | cons j js ih =>
    rw [List.mapM_cons] at hjs
    obtain ⟨a, ha, hjs⟩ := Option.bind_eq_some_iff.1 hjs
    obtain ⟨as, has, heq⟩ := Option.bind_eq_some_iff.1 hjs
    cases heq
    -- The first item is read back by `h`, the others by induction.
    rw [List.map_cons, List.mapM_cons, h j a ha, ih has]
    rfl

/-- `items?` reads back if the decoder of the items does. -/
theorem items? {α : Type} {encode : α → Json} {decode : Json → Option α}
    (h : ReadsBack encode decode) (budget : Nat) :
    ReadsBack (fun as => .arr (as.map encode)) (items? budget decode) := by
  intro j as hj
  unfold Json.items? at hj
  split at hj
  · split at hj
    · cases hj
    · rename_i hbudget
      rw [Json.items?, if_neg hbudget]
      exact h.mapM hj
  · cases hj

end ReadsBack

end Json

/-- `Consume.ofJson?` of `toJson`, whatever the budget: the word for a consumer needs no room. -/
theorem Consume.ofJson?_toJson (c : Consume) (budget : Nat) : ofJson? budget c.toJson = some c := by
  cases c <;> rfl

namespace Node

theorem listToJson_eq_map (items : List Node) : listToJson items = items.map toJson := by
  induction items with
  | nil => rw [listToJson, List.map_nil]
  | cons n rest ih => rw [listToJson, ih, List.map_cons]

/-! ## One node -/

/-- The name of a node's kind. -/
def tag : Node → String
  | .var .. => "var"
  | .atom .. => "atom"
  | .text .. => "str"
  | .binding .. => "binding"
  | .block .. => "block"
  | .call .. => "call"

/-- What a node's kind holds. -/
def payload : Node → Json
  | .var _ name | .atom _ name | .text _ name => .ofText name
  | .binding _ level consume name =>
    .object [("level", .nat level), ("consume", consume.toJson), ("name", .ofText name)]
  | .block _ items => .arr (items.map toJson)
  | .call _ callee args => .object [("callee", callee.toJson), ("args", .arr (args.map toJson))]

/-- `toJson` of a node in terms of its `tag` and its `payload`. -/
theorem toJson_eq_encode (n : Node) : n.toJson = encode n.pos n.tag n.payload := by
  cases n with
  | block | call => rw [toJson, listToJson_eq_map]; rfl
  | _ => rw [toJson]; rfl

/-- `bindingOfJson?` reads back what it decodes. A consumer that was left out is written out, and takes
    no room. -/
theorem readsBack_bindingOfJson? {budget pos : Nat} {j : Json} {n : Node}
    (h : bindingOfJson? budget pos j = some n) :
    n.pos = pos ∧ n.tag = "binding" ∧ bindingOfJson? budget pos n.payload = some n := by
  unfold bindingOfJson? at h
  split at h
  · cases h
  · rename_i hbudget
    split at h
    · rename_i level consume? name hrecord
      -- The consumer was found or left out; either way there is one.
      have hdecoded : ∃ l consume s, level.word? 32 = some l ∧ n = .binding pos l consume s := by
        cases consume? with
        | some | none =>
          obtain ⟨consume, -, h⟩ := Option.bind_eq_some_iff.1 h
          obtain ⟨l, hlevel, h⟩ := Option.bind_eq_some_iff.1 h
          obtain ⟨s, -, h⟩ := Option.bind_eq_some_iff.1 h
          exact ⟨l, consume, s, hlevel, (Option.some.inj h).symm⟩
      obtain ⟨l, consume, s, hlevel, rfl⟩ := hdecoded
      refine ⟨rfl, rfl, ?_⟩
      have hfields : (payload (.binding pos l consume s)).record? ["level", "consume", "name"] =
          some [some (.nat l), some consume.toJson, some (.ofText s)] := rfl
      have hword : (Json.nat l).word? 32 = some l := Json.ReadsBack.word? 32 level l hlevel
      rw [bindingOfJson?, if_neg hbudget, hfields]
      simp only [Consume.ofJson?_toJson, hword]
      rfl
    · cases h

section

variable {budget : Nat} {inner innermost : Json → Option Node}

/-- `callOfJson?` reads back if the decoders of the callee and of the arguments do. -/
theorem readsBack_callOfJson? (hinner : Json.ReadsBack toJson inner)
    (hinnermost : Json.ReadsBack toJson innermost) {pos : Nat} {j : Json} {n : Node}
    (h : callOfJson? budget pos inner innermost j = some n) :
    n.pos = pos ∧ n.tag = "call" ∧
      callOfJson? budget pos inner innermost n.payload = some n := by
  unfold callOfJson? at h
  split at h
  · cases h
  · rename_i hbudget
    split at h
    · rename_i c as hrecord
      obtain ⟨callee, hcallee, h⟩ := Option.bind_eq_some_iff.1 h
      obtain ⟨args, hargs, h⟩ := Option.bind_eq_some_iff.1 h
      cases h
      -- What is encoded has both fields, and each part is decoded under the budget it had.
      refine ⟨rfl, rfl, ?_⟩
      have hfields : (payload (.call pos callee args)).record? ["callee", "args"] =
          some [some callee.toJson, some (.arr (args.map toJson))] := rfl
      rw [callOfJson?, if_neg hbudget, hfields]
      simp only [hinner c callee hcallee, hinnermost.items? (budget - 1) as args hargs]
      rfl
    · cases h

/-- `kindOfJson?` reads back: the kind that is decoded is the kind that was written, and its own
    content is decoded to it. -/
theorem readsBack_kindOfJson? (hinner : Json.ReadsBack toJson inner)
    (hinnermost : Json.ReadsBack toJson innermost) {pos : Nat} {tag : String} {j : Json} {n : Node}
    (h : kindOfJson? budget inner innermost pos tag j = some n) :
    n.pos = pos ∧ kindOfJson? budget inner innermost pos n.tag n.payload = some n := by
  unfold kindOfJson? at h
  split at h
  · -- var
    obtain ⟨name, -, rfl⟩ := Option.map_eq_some_iff.1 h
    exact ⟨rfl, rfl⟩
  · -- atom
    obtain ⟨name, -, rfl⟩ := Option.map_eq_some_iff.1 h
    exact ⟨rfl, rfl⟩
  · -- str
    obtain ⟨content, -, rfl⟩ := Option.map_eq_some_iff.1 h
    exact ⟨rfl, rfl⟩
  · -- binding
    obtain ⟨hpos, htag, hpayload⟩ := readsBack_bindingOfJson? h
    exact ⟨hpos, by rw [htag]; exact hpayload⟩
  · -- block
    obtain ⟨items, hitems, rfl⟩ := Option.map_eq_some_iff.1 h
    exact ⟨rfl, congrArg (Option.map (block pos)) (hinner.items? budget j items hitems)⟩
  · -- call
    obtain ⟨hpos, htag, hpayload⟩ := readsBack_callOfJson? hinner hinnermost h
    exact ⟨hpos, by rw [htag]; exact hpayload⟩
  · cases h

/-- `recordOfJson?` reads back if the decoders of the nodes further in do. -/
theorem readsBack_recordOfJson? (hinner : Json.ReadsBack toJson inner)
    (hinnermost : Json.ReadsBack toJson innermost) :
    Json.ReadsBack toJson (recordOfJson? budget inner innermost) := by
  intro j n h
  unfold recordOfJson? at h
  split at h
  · rename_i position kind hrecord
    obtain ⟨⟨tag, content⟩, -, h⟩ := Option.bind_eq_some_iff.1 h
    obtain ⟨pos, hpos, h⟩ := Option.bind_eq_some_iff.1 h
    -- The position is the one that was read, so it is a word of 64 bits.
    obtain ⟨rfl, hkind⟩ := readsBack_kindOfJson? hinner hinnermost h
    have hfields : (encode n.pos n.tag n.payload).record? ["pos", "kind"] =
        some [some (.nat n.pos), some (.variant n.tag n.payload)] := rfl
    have hvariant : (Json.variant n.tag n.payload).variant? = some (n.tag, n.payload) := rfl
    have hword : (Json.nat n.pos).word? 64 = some n.pos :=
      Json.ReadsBack.word? 64 position n.pos hpos
    rw [toJson_eq_encode, recordOfJson?, hfields]
    simp only [hvariant, hword]
    exact hkind
  · cases h

end

/-! ## Whole trees -/

/-- `ofJson?` of every budget reads back. It is made from two of smaller budgets. -/
theorem readsBack_ofJson? : (budget : Nat) → Json.ReadsBack toJson (ofJson? budget)
  | 0 | 1 => .of_eq_none toJson fun _ => rfl
  | 2 | 3 =>
    have hnone : Json.ReadsBack toJson fun _ => none := .of_eq_none toJson fun _ => rfl
    readsBack_recordOfJson? hnone hnone
  | budget + 4 =>
    readsBack_recordOfJson? (readsBack_ofJson? (budget + 1)) (readsBack_ofJson? budget)

/-- `listOfJson?` reads back whole trees. -/
theorem readsBack_listOfJson? (budget : Nat) :
    Json.ReadsBack (fun items => .arr (listToJson items)) (listOfJson? budget) := by
  simp only [listToJson_eq_map]
  exact (readsBack_ofJson? (budget - 1)).items? budget

theorem wellSpelt_encode (pos : Nat) (kind : String) {payload : Json} (h : payload.WellSpelt) :
    (encode pos kind payload).WellSpelt :=
  .obj (by simpa [Json.object] using ⟨.nat pos, .variant h⟩)

mutual

/-- `toJson` of a node is `WellSpelt`: its only numbers are positions and levels. By recursion on the
    node. -/
theorem wellSpelt_toJson : (n : Node) → n.toJson.WellSpelt
  | .var pos name | .atom pos name | .text pos name => by
    rw [toJson]
    exact wellSpelt_encode pos _ (.str (some name))
  | .binding pos level consume name => by
    have hconsume : consume.toJson.WellSpelt := by cases consume <;> exact .str _
    rw [toJson]
    exact wellSpelt_encode pos _
      (.obj (by simpa [Json.object] using ⟨.nat level, hconsume, .str (some name)⟩))
  | .block pos items => by
    rw [toJson]
    exact wellSpelt_encode pos _ (.arr (wellSpelt_listToJson items))
  | .call pos callee args => by
    have hcallee := wellSpelt_toJson callee
    have hargs := wellSpelt_listToJson args
    rw [toJson]
    exact wellSpelt_encode pos _ (.obj (by simpa [Json.object] using ⟨hcallee, .arr hargs⟩))

theorem wellSpelt_listToJson : (items : List Node) → ∀ j ∈ listToJson items, j.WellSpelt
  | [] => by simp [listToJson]
  | n :: rest => by
    rw [listToJson]
    exact List.forall_mem_cons.2 ⟨wellSpelt_toJson n, wellSpelt_listToJson rest⟩

end

end Node

/-- `parse?` of both printed forms of a value, `compact` and `indented`. -/
theorem Json.parse?_of_mem_printed {j : Json} (hj : j.WellSpelt) {text : String}
    (htext : text ∈ [j.compact, j.indented]) : parse? text = some j := by
  apply parse?_of_spells hj
  rw [List.mem_cons, List.mem_singleton] at htext
  rcases htext with rfl | rfl
  · exact Token.spells_text j.tokens
  · have h := Token.spells_indentedParts 0 j.tokens (List.forall_mem_nil (isBlank · = true))
    rwa [List.append_nil] at h

/-- `parseTree?` of `listToJson`. However a tree was written, both printed texts of what was decoded
    are decoded to the same items. -/
theorem parseTree?_listToJson (text : String) (items : List Node)
    (h : Node.parseTree? text = some items) :
    ∀ printed ∈ [(Json.arr (Node.listToJson items)).compact,
        (Json.arr (Node.listToJson items)).indented],
      Node.parseTree? printed = some items := by
  intro printed hprinted
  obtain ⟨j, -, hj⟩ := Option.bind_eq_some_iff.1 h
  have hread : Json.parse? printed = some (.arr (Node.listToJson items)) :=
    Json.parse?_of_mem_printed (.arr (Node.wellSpelt_listToJson items)) hprinted
  rw [Node.parseTree?, hread]
  exact Node.readsBack_listOfJson? Json.maxNesting j items hj

set_option maxRecDepth 2000 in
/-- Records as arrays and as objects, with the members exchanged and another between them, a consumer as
    a variant and one left out, blanks and an escape. -/
theorem parseTree?_listToJson_of_loose_text :
    let text :=
      "[\x7b\"kind\": \x7b\"block\": [" ++
      "[9, \x7b\"binding\": [2, \x7b\"block\": null\x7d, \"y\"]\x7d]]\x7d," ++
      "\n  \"\": [-1], \"pos\": 7\x7d," ++
      "\n  [0, \x7b\"binding\":\x7b\"name\":\"\\u0078\",\"level\":1\x7d\x7d]]"
    let items : List Node := [.block 7 [.binding 9 2 .block "y"], .binding 0 1 .scope "x"]
    Node.parseTree? text = some items ∧
      Node.parseTree? (Json.arr (Node.listToJson items)).compact = some items ∧
      Node.parseTree? (Json.arr (Node.listToJson items)).indented = some items := by
  intro text items
  -- The value of the text as it was written; its tokens are what is scanned.
  let loose : Json := .arr [
    .object [
      ("kind", .variant "block" (.arr [
        .arr [.nat 9, .variant "binding" (.arr [.nat 2, .variant "block" .null, .ofText "y"])]])),
      ("", .arr [.numeral "-1"]),
      ("pos", .nat 7)],
    .arr [.nat 0, .variant "binding" (.object [("name", .ofText "x"), ("level", .nat 1)])]]
  have hscan : Json.Token.scan text.toList = some loose.tokens := by
    subst text loose
    cbv
  have htext : Node.parseTree? text = some items := by
    rw [Node.parseTree?, Json.parse?, hscan]
    exact congrArg (Option.bind · (Node.listOfJson? Json.maxNesting)) (Json.ofTokens?_tokens loose)
  have hprinted := parseTree?_listToJson text items htext
  rw [List.forall_mem_cons, List.forall_mem_singleton] at hprinted
  exact ⟨htext, hprinted.1, hprinted.2⟩

end Unsugar
