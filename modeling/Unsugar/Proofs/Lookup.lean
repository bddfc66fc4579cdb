import Unsugar.Proofs.Preservation

/-!
# Names that a run looks up

A name is looked up where it is used, and before that where a call is examined: for a callee that is a
macro, and for bindings that a macro would see in an argument. The examination does not look into
blocks, and outside of them the scope stays the same. So every name it asks for is later used in the
very scope that was examined, and if the run succeeds, each of them means something there.

## Key results

- `Scope.hasBindings_congr`: an examination depends on what the names outside of blocks are bound as
- `Lower.name_knows`: a name fails exactly if the context does not know it
- `Lower.node_knows`: a run that succeeds knows all names outside of blocks
-/

namespace Unsugar

namespace Node

mutual

/-- The names that are used in a node. -/
def names : Node → List String
  | .var _ name => [name]
  | .atom .. | .text .. | .binding .. => []
  | .block _ items => namesAll items
  | .call _ callee args => callee.names ++ namesAll args

/-- The names that are used in several nodes. -/
def namesAll : List Node → List String
  | [] => []
  | node :: rest => node.names ++ namesAll rest

end

mutual

/-- The names that are used in a node outside of its blocks. -/
def openNames : Node → List String
  | .var _ name => [name]
  | .atom .. | .text .. | .binding .. | .block .. => []
  | .call _ callee args => callee.openNames ++ openNamesAll args

/-- The names that are used in several nodes outside of their blocks. -/
def openNamesAll : List Node → List String
  | [] => []
  | node :: rest => node.openNames ++ openNamesAll rest

end

mutual

/-- `openNames` are among `names`. -/
theorem openNames_subset : (n : Node) → n.openNames ⊆ n.names
  | .var .. | .atom .. | .text .. | .binding .. | .block .. => by simp [openNames, names]
  | .call pos callee args => by
    have hcallee := openNames_subset callee
    have hargs := openNamesAll_subset args
    rw [openNames, names]
    exact List.append_subset.2 ⟨List.subset_append_of_subset_left _ hcallee,
      List.subset_append_of_subset_right _ hargs⟩

/-- `openNamesAll` are among `namesAll`. -/
theorem openNamesAll_subset : (ns : List Node) → openNamesAll ns ⊆ namesAll ns
  | [] => by simp [openNamesAll]
  | n :: rest => by
    have hn := openNames_subset n
    have hrest := openNamesAll_subset rest
    rw [openNamesAll, namesAll]
    exact List.append_subset.2 ⟨List.subset_append_of_subset_left _ hn,
      List.subset_append_of_subset_right _ hrest⟩

end

end Node

/-- `itemsOrNil` adds no names: the atom `Nil` uses none. -/
@[simp] theorem Lower.namesAll_itemsOrNil (ns : List Node) :
    Node.namesAll (itemsOrNil ns) = Node.namesAll ns := by
  cases ns with
  | nil => simp [itemsOrNil, Node.namesAll, Node.names]
  | cons n rest => rfl

/-! ## Looking a name up -/

namespace Scope

variable {x : String} {inner : List ScopeEntry}

/-- `resolve?` leads past the entries that do not carry the name. -/
theorem resolve?_append_named (h : ∀ e ∈ inner, e.name? ≠ some x) (kind : NameKind)
    (outer : List ScopeEntry) :
    (Scope.mk (inner ++ .named kind x :: outer)).resolve? x = some inner.length := by
  have hnone : inner.findIdx? (·.name? = some x) = none := by
    rw [List.findIdx?_eq_none_iff]
    intro e he
    simp [h e he]
  simp [resolve?, List.findIdx?_append, hnone, List.findIdx?_cons, ScopeEntry.named]

/-- `classify?` leads past the entries that do not carry the name. -/
theorem classify?_append_of_ne (h : ∀ e ∈ inner, e.name? ≠ some x) (outer : List ScopeEntry) :
    (Scope.mk (inner ++ outer)).classify? x = (Scope.mk outer).classify? x := by
  have hnone : inner.find? (·.name? = some x) = none := by
    rw [List.find?_eq_none]
    intro e he
    simp [h e he]
  rw [classify?, classify?, List.find?_append, hnone, Option.none_or]

/-- `classify?` behind such entries finds the first that carries the name. -/
theorem classify?_append_named (h : ∀ e ∈ inner, e.name? ≠ some x) (kind : NameKind)
    (outer : List ScopeEntry) :
    (Scope.mk (inner ++ .named kind x :: outer)).classify? x = some kind := by
  rw [classify?_append_of_ne h]
  simp [classify?, ScopeEntry.named]

/-- `classify?` goes no further than entries of one kind among which the name is. -/
theorem classify?_append_of_mem {kind : NameKind} (hmem : ∃ e ∈ inner, e.name? = some x)
    (hkind : ∀ e ∈ inner, e.kind = kind) (outer : List ScopeEntry) :
    (Scope.mk (inner ++ outer)).classify? x = some kind := by
  have hsome : (inner.find? (·.name? = some x)).isSome := by
    rw [List.find?_isSome]
    simpa using hmem
  obtain ⟨e, he⟩ := Option.isSome_iff_exists.1 hsome
  rw [classify?, List.find?_append, he, Option.some_or, Option.map_some,
    hkind e (List.mem_of_find?_eq_some he)]

end Scope

/-! ## Examining a call -/

namespace Scope

variable {s s' : Scope}

/-- `isMacro` depends on the scope only through the kind of the name. -/
theorem isMacro_congr {n : Node} (h : ∀ x ∈ n.openNames, s'.classify? x = s.classify? x) :
    s'.isMacro n = s.isMacro n := by
  cases n with
  | var pos x =>
    have hx := h x (by simp [Node.openNames])
    simp only [isMacro, hx]
  | _ => rfl

mutual

/-- `hasBindings` depends on the scope only through the kinds of the names outside of blocks. By
    recursion on the node. -/
theorem hasBindings_congr :
    (n : Node) → (∀ x ∈ n.openNames, s'.classify? x = s.classify? x) →
      s'.hasBindings n = s.hasBindings n
  | .var .., _ | .atom .., _ | .text .., _ | .binding .., _ | .block .., _ => by simp [hasBindings]
  | .call pos callee args, h => by
    simp only [Node.openNames, List.mem_append] at h
    have hcallee : ∀ x ∈ callee.openNames, s'.classify? x = s.classify? x := fun x hx => h x (.inl hx)
    have hargs : ∀ x ∈ Node.openNamesAll args, s'.classify? x = s.classify? x :=
      fun x hx => h x (.inr hx)
    rw [hasBindings, hasBindings, isMacro_congr hcallee, hasBindings_congr callee hcallee,
      anyHasBindings_congr args hargs]

/-- `anyHasBindings` depends on the scope only through the kinds of the names outside of blocks. -/
theorem anyHasBindings_congr :
    (ns : List Node) → (∀ x ∈ Node.openNamesAll ns, s'.classify? x = s.classify? x) →
      s'.anyHasBindings ns = s.anyHasBindings ns
  | [], _ => by simp [anyHasBindings]
  | n :: rest, h => by
    simp only [Node.openNamesAll, List.mem_append] at h
    rw [anyHasBindings, anyHasBindings, hasBindings_congr n fun x hx => h x (.inl hx),
      anyHasBindings_congr rest fun x hx => h x (.inr hx)]

end

end Scope

/-! ## Names with a meaning -/

/-- A name means something in a context if it is in scope, built in, or an effect. -/
def Context.Knows (c : Context) (x : String) : Prop :=
  (c.scope.resolve? x).isSome ∨ (Builtin.ofName? x).isSome ∨ c.isEffect x

/-- `Knows` depends on the scope and the effect suffix only. -/
theorem Context.Knows.congr {c c' : Context} {x : String} (h : c'.Knows x)
    (hscope : c'.scope = c.scope) (hsuffix : c'.effectSuffix = c.effectSuffix) : c.Knows x := by
  have heffect : c'.isEffect x = c.isEffect x := by simp only [isEffect, hsuffix]
  unfold Knows at h ⊢
  rwa [hscope, heffect] at h

namespace Lower

/-- `name` succeeds if the context knows the name, and otherwise fails with it. -/
theorem name_knows (span : Span) (x : String) (c : Context) :
    Ends (fun _ _ => c.Knows x) (fun e _ => e = ⟨span, x⟩ ∧ ¬ c.Knows x) ((name span x).exec c) := by
  rw [name, exec_get_bind]
  cases hscope : c.scope.resolve? x with
  -- in scope
  | some i => exact .inl (by rw [hscope]; rfl)
  | none =>
    cases hbuiltin : Builtin.ofName? x with
    -- built in
    | some b => exact .inr (.inl (by rw [hbuiltin]; rfl))
    | none =>
      cases heffect : c.isEffect x with
      -- an effect
      | true => exact .inr (.inr heffect)
      | false =>
        -- None of the three ways to know the name is left.
        refine ⟨rfl, ?_⟩
        intro h
        simp [Context.Knows, hscope, hbuiltin, heffect] at h

/-- If a node is lowered at all, the context knows the names in it, blocks apart. -/
abbrev NodeKnows (d : Delivery) (k : NameKind) (n : Node) : Prop :=
  ∀ c, Ends (fun _ _ => ∀ x ∈ n.openNames, c.Knows x) (fun _ _ => True) ((node d k n).exec c)

/-- If `arguments` are lowered at all, the context knows the names in them, blocks apart. -/
abbrev ArgumentsKnow (d : Delivery) (ns : List Node) : Prop :=
  ∀ c, Ends (fun _ _ => ∀ x ∈ Node.openNamesAll ns, c.Knows x) (fun _ _ => True)
    ((arguments d ns).exec c)

/-- `node` of a call: the names of the callee and of the arguments are looked up in one scope. -/
theorem call_knows (d : Delivery) (k : NameKind) (pos : Nat) (callee : Node) (args : List Node)
    (hcallee : ∀ k d, NodeKnows d k callee) (hargs : ∀ d, ArgumentsKnow d args) :
    NodeKnows d k (.call pos callee args) := by
  intro c
  have hnames (hc : ∀ x ∈ callee.openNames, c.Knows x)
      (ha : ∀ x ∈ Node.openNamesAll args, c.Knows x) :
      ∀ x ∈ (Node.call pos callee args).openNames, c.Knows x := by
    rw [Node.openNames]
    exact List.forall_mem_append.2 ⟨hc, ha⟩
  -- In both ways of lowering a call, the callee gives back the scope that the arguments start from.
  rcases structure_or_ordinary d c.scope (.call pos callee args) with ⟨rfl, h⟩ | h
  · -- structure
    rw [exec_call_structure h]
    refine ((hcallee _ _ c).and (node_framed _ _ _ c)).bind ?_
    intro head c₁ hmid
    obtain ⟨hc, hgrows, hscope⟩ := hmid
    refine (hargs _ c₁).bind ?_
    intro ts c₂ ha
    exact hnames hc fun x hx => (ha x hx).congr hscope hgrows.effectSuffix
  · -- ordinary
    rw [exec_call_ordinary h]
    refine ((hcallee _ _ _).and (node_framed _ _ _ _)).bind ?_
    intro fn c₁ hmid
    obtain ⟨hc, hgrows, hscope⟩ := hmid
    rw [exec_noteIf_bind]
    refine (hargs _ _).bind ?_
    intro values c₂ ha
    exact hnames hc fun x hx => (ha x hx).congr hscope hgrows.effectSuffix

/-- `node` and `arguments` that are lowered know their names, by `Lower.induct_arguments`. -/
private theorem knows_all :
    (∀ k n d, NodeKnows d k n) ∧ ∀ ns d, ArgumentsKnow d ns := by
  -- Without names there is nothing to know.
  have hnone {α : Type} {c : Context} (r : Except Unresolved α × Context) :
      Ends (fun _ _ => ∀ x ∈ ([] : List String), c.Knows x) (fun _ _ => True) r :=
    (ends_true r).imp (fun _ _ _ => List.forall_mem_nil _) fun _ _ h => h
  refine induct_arguments (fun k n => ∀ d, NodeKnows d k n) (fun ns => ∀ d, ArgumentsKnow d ns)
    ?_ ?_ ?_ ?_ ?_ ?_ ?_ ?_
  · -- var
    intro k pos x d c
    rw [node, Node.openNames, List.forall_mem_singleton]
    refine ((name_knows _ x c).imp (fun _ _ h => h) fun _ _ _ => trivial).bind ?_
    intro t c' h
    exact h
  · -- atom
    intro k pos x d c
    rw [Node.openNames]
    exact hnone _
  · -- text
    intro k pos content d c
    rw [Node.openNames]
    exact hnone _
  · -- binding
    intro k pos level consume x d c
    rw [Node.openNames]
    exact hnone _
  · -- block
    intro k pos ns d c
    rw [Node.openNames]
    exact hnone _
  · -- call
    intro k pos callee args hcallee hargs d
    exact call_knows d k pos callee args hcallee hargs
  · -- no arguments
    intro d c
    rw [Node.openNamesAll]
    exact hnone _
  · -- an argument and the rest
    intro arg rest harg hrest d c
    rw [arguments, Node.openNamesAll]
    refine ((harg d c).and (node_framed _ _ _ c)).bind ?_
    intro t c₁ hmid
    obtain ⟨hc, hgrows, hscope⟩ := hmid
    refine (hrest d c₁).bind ?_
    intro ts c₂ hr
    refine List.forall_mem_append.2 ⟨hc, ?_⟩
    exact fun x hx => (hr x hx).congr hscope hgrows.effectSuffix

/-- `node` that is lowered uses no unknown names outside of its blocks. -/
theorem node_knows (d : Delivery) (k : NameKind) (n : Node) (c : Context) :
    Ends (fun _ _ => ∀ x ∈ n.openNames, c.Knows x) (fun _ _ => True) ((node d k n).exec c) :=
  knows_all.1 k n d c

end Lower

end Unsugar
