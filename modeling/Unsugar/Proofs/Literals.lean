import Mathlib
import Unsugar.Proofs.Preservation
import Unsugar.Proofs.Occurrence

/-!
# The literal table of a program is exact

Places in the literal table are handed out all over lowering, and the terms that carry them travel
through tags, lists, applications and the fold of blocks. `Lower.Exact c c' leaves` says that nothing
is lost on the way between two contexts: the leaves refer to places of the table in `c'`, and every
place that is new since `c` is among them. It is additive over the parts of a run (`Exact.append`) and
does not look at how the leaves are put together, so it passes through every construct.

## Key results

- `Lower.Exact.append`, `Lower.Exact.rearrange`: parts of a run, and terms made of their terms
- `Lower.block_exact`: what a block adds to the table, its term refers to
- `lowerAll_literals_exact`: the table of a program
-/

namespace Unsugar

/-! ## Interning -/

/-- `intern` adds at most one place, which is the one it gives. -/
theorem LiteralTable.eq_intern_of_size_le (t : LiteralTable) (l : Literal) {i : Nat}
    (hi : t.size ≤ i) (hlt : i < (t.intern l).2.size) : i = (t.intern l).1 := by
  unfold intern at hlt ⊢
  cases h : t.indexOf? l with
  | some j =>
    -- If the literal is there already, the table does not grow.
    rw [h] at hlt
    exact absurd hlt (Nat.not_lt_of_le hi)
  | none =>
    rw [h] at hlt
    have hsize : (LiteralTable.mk (t.toList ++ [l])).size = t.size + 1 := by
      simp [size]
    dsimp only at hlt ⊢
    omega

/-- `intern` gives a place of the new table. -/
theorem LiteralTable.intern_lt_size (t : LiteralTable) (l : Literal) :
    (t.intern l).1 < (t.intern l).2.size := by
  obtain ⟨h, -⟩ := List.getElem?_eq_some_iff.1 (t.get?_intern l)
  exact h

/-! ## Names -/

/-- `resolve?` finds no name in a scope that it does not find in a larger one. -/
theorem Scope.resolve?_eq_none_of_suffix {s s' : Scope} (h : s.entries <:+ s'.entries) {x : String}
    (hx : s'.resolve? x = none) : s.resolve? x = none := by
  unfold resolve? at hx ⊢
  rw [List.findIdx?_eq_none_iff] at hx ⊢
  exact fun e he => hx e (h.subset he)

theorem Context.Grows.isEffect_eq {c c' : Context} (h : c.Grows c') (x : String) :
    c'.isEffect x = c.isEffect x := by
  simp only [isEffect, h.effectSuffix]

/-- `leaves` of a built-in operation: it has no literals and no effects. -/
theorem Builtin.leaves_term (b : Builtin) : ∀ s ∈ b.term.leaves, ∃ i, s = .var i := by
  rw [Builtin.term, Term.leaves_abstracted]
  cases b <;> simp [Builtin.body, Term.leaves]

/-! ## Reserved literals -/

/-- The table starts with the reserved atoms. -/
def Context.HasReserved (c : Context) : Prop :=
  LiteralTable.reserved.toList <+: c.literals.toList

/-- `Reserved.index` is a place of a table that starts with the reserved atoms. -/
theorem Context.HasReserved.index_lt {c : Context} (h : c.HasReserved) (r : Reserved) :
    r.index < c.literals.size := by
  have hsize : 4 ≤ c.literals.size := h.length_le
  cases r <;> simp only [Reserved.index] <;> omega

theorem Context.Grows.hasReserved {c c' : Context} (h : c.Grows c') (hc : c.HasReserved) :
    c'.HasReserved :=
  List.IsPrefix.trans hc h.literals

namespace Lower

/-! ## Exactness -/

/-- A leaf that was lowered between two contexts has its place in the table. The name of an effect was
    bound neither in the scope at the start nor as a built-in operation. -/
def LeafSound (c c' : Context) : Term → Prop
  | .lit i => i < c'.literals.size
  | .effect i => ∃ x, c'.literals.get? i = some (.atom x) ∧ c.isEffect x ∧
      Builtin.ofName? x = none ∧ c.scope.resolve? x = none
  | _ => True

/-- Leaves that refer to places of the table in `c'`, and to all those that are new since `c`. -/
structure Exact (c c' : Context) (leaves : List Term) : Prop where
  sound : ∀ s ∈ leaves, LeafSound c c' s
  covers : ∀ i, c.literals.size ≤ i → i < c'.literals.size →
    .lit i ∈ leaves ∨ .effect i ∈ leaves

/-- `LeafSound` is kept when the table is added to afterwards. -/
theorem LeafSound.grow {c c₁ c₂ : Context} {s : Term} (h : LeafSound c c₁ s) (hg : c₁.Grows c₂) :
    LeafSound c c₂ s := by
  cases s with
  | lit i => exact Nat.lt_of_lt_of_le h hg.size_le
  | effect i =>
    obtain ⟨x, hx, hrest⟩ := h
    exact ⟨x, hg.get? hx, hrest⟩
  | _ => trivial

/-- `LeafSound` is kept when the run starts earlier: a name that is not in the inner scope is not in
    the outer. -/
theorem LeafSound.widen {c c₁ c₂ : Context} {s : Term} (h : LeafSound c₁ c₂ s) (hg : c.Grows c₁) :
    LeafSound c c₂ s := by
  cases s with
  | lit i => exact h
  | effect i =>
    obtain ⟨x, hx, heffect, hbuiltin, hresolve⟩ := h
    rw [hg.isEffect_eq] at heffect
    exact ⟨x, hx, heffect, hbuiltin, Scope.resolve?_eq_none_of_suffix hg.scope hresolve⟩
  | _ => trivial

/-- `Exact` of two parts of a run one after the other. -/
theorem Exact.append {c c₁ c₂ : Context} {ls₁ ls₂ : List Term} (h₁ : Exact c c₁ ls₁)
    (h₂ : Exact c₁ c₂ ls₂) (hg₁ : c.Grows c₁) (hg₂ : c₁.Grows c₂) : Exact c c₂ (ls₁ ++ ls₂) where
  sound := by
    intro s hs
    rcases List.mem_append.1 hs with hs | hs
    · exact (h₁.sound s hs).grow hg₂
    · exact (h₂.sound s hs).widen hg₁
  covers := by
    intro i hi hlt
    -- A new place was new already in the first part, or became new in the second.
    by_cases hmid : i < c₁.literals.size
    · rcases h₁.covers i hi hmid with h | h
      · exact .inl (List.mem_append_left _ h)
      · exact .inr (List.mem_append_left _ h)
    · rcases h₂.covers i (Nat.le_of_not_lt hmid) hlt with h | h
      · exact .inl (List.mem_append_right _ h)
      · exact .inr (List.mem_append_right _ h)

/-- `Exact` with an operation before it that keeps the table. -/
theorem Exact.after {c c₁ c₂ : Context} {ls : List Term} (h : Exact c₁ c₂ ls) (hg : c.Grows c₁)
    (hl : c₁.literals = c.literals) : Exact c c₂ ls where
  sound := fun s hs => (h.sound s hs).widen hg
  covers := fun i hi hlt => h.covers i (by rw [hl]; exact hi) hlt

/-- `Exact` with an operation after it that keeps the table. -/
theorem Exact.before {c c₁ c₂ : Context} {ls : List Term} (h : Exact c c₁ ls)
    (hl : c₂.literals = c₁.literals) : Exact c c₂ ls where
  sound := by
    intro s hs
    have := h.sound s hs
    cases s with
    | lit i | effect i => simpa only [LeafSound, hl] using this
    | _ => trivial
  covers := fun i hi hlt => h.covers i hi (by rw [← hl]; exact hlt)

/-- `Exact` does not depend on how the leaves are put together, and reserved literals may be added. -/
theorem Exact.rearrange {c c' : Context} {ls ls' : List Term} (h : Exact c c' ls)
    (hc' : c'.HasReserved) (hsub : ∀ s ∈ ls, s ∈ ls')
    (hsup : ∀ s ∈ ls', s ∈ ls ∨ ∃ r, s = .reserved r) : Exact c c' ls' where
  sound := by
    intro s hs
    rcases hsup s hs with hs | ⟨r, rfl⟩
    · exact h.sound s hs
    · exact hc'.index_lt r
  covers := by
    intro i hi hlt
    rcases h.covers i hi hlt with h | h
    · exact .inl (hsub _ h)
    · exact .inr (hsub _ h)

/-! ## Leaves -/

/-- `Exact` of the literal that `intern` gives. -/
theorem exact_literal (c : Context) (l : Literal) :
    Exact c (c.intern l).2 [.lit (c.intern l).1] where
  sound := by
    intro s hs
    rw [List.mem_singleton.1 hs]
    exact c.literals.intern_lt_size l
  covers := by
    intro i hi hlt
    rw [c.literals.eq_intern_of_size_le l hi hlt]
    exact .inl (List.mem_singleton_self _)

/-- `Exact` of an effect: `intern` gives its place, and its name is neither in scope nor built in. -/
theorem exact_effect (c : Context) {x : String} (heffect : c.isEffect x)
    (hbuiltin : Builtin.ofName? x = none) (hresolve : c.scope.resolve? x = none) :
    Exact c (c.intern (.atom x)).2 [.effect (c.intern (.atom x)).1] where
  sound := by
    intro s hs
    rw [List.mem_singleton.1 hs]
    exact ⟨x, c.literals.get?_intern _, heffect, hbuiltin, hresolve⟩
  covers := by
    intro i hi hlt
    rw [c.literals.eq_intern_of_size_le _ hi hlt]
    exact .inr (List.mem_singleton_self _)

/-- `Exact` of variables, which refer to no literal. -/
theorem exact_vars (c : Context) {ls : List Term} (h : ∀ s ∈ ls, ∃ i, s = .var i) :
    Exact c c ls where
  sound := by
    intro s hs
    obtain ⟨i, rfl⟩ := h s hs
    trivial
  covers := fun i hi hlt => absurd hlt (Nat.not_lt_of_le hi)

/-- `literal` refers to the place that it interns. -/
theorem literal_exact (l : Literal) (c : Context) :
    Ends (fun t c' => Exact c c' t.leaves) (fun _ _ => True) ((literal l).exec c) :=
  exact_literal c l

/-- `queue` refers to the place of the name that it interns. -/
theorem queue_exact (b : Pending) (c : Context) :
    Ends (fun t c' => Exact c c' t.leaves) (fun _ _ => True) ((queue b).exec c) := by
  have hqueued : c.Grows { c.note (.queued b.name b.level b.kind) with
      pending := c.pending ++ [b] } := .of_eq rfl rfl rfl
  exact (exact_literal _ (.atom b.name)).after hqueued rfl

/-- `name` refers to what it interns. Only a name that is neither in scope nor built in becomes an
    effect. -/
theorem name_exact (span : Span) (x : String) (c : Context) :
    Ends (fun t c' => Exact c c' t.leaves) (fun _ _ => True) ((name span x).exec c) := by
  rw [name, exec_get_bind]
  cases hresolve : c.scope.resolve? x with
  | some i => exact exact_vars c (by simp [Term.leaves])
  | none =>
    cases hbuiltin : Builtin.ofName? x with
    | some b => exact (exact_vars _ b.leaves_term).after (.of_eq rfl rfl rfl) rfl
    | none =>
      cases heffect : c.isEffect x with
      | true => exact exact_effect c heffect hbuiltin hresolve
      | false => trivial

/-! ## Tags -/

/-- `Exact` of a tagged term: the tag is a reserved literal. -/
theorem Exact.tagged {c c' : Context} {t : Term} (h : Exact c c' t.leaves)
    (hc' : c'.HasReserved) (r : Reserved) : Exact c c' (t.tagged r).leaves := by
  refine h.rearrange hc' ?_ ?_
  · intro s hs
    exact List.mem_append_right _ hs
  · intro s hs
    rcases List.mem_append.1 hs with hs | hs
    · exact .inr ⟨r, List.mem_singleton.1 hs⟩
    · exact .inl hs

/-- `Exact` of a term that is delivered as a value. -/
theorem Exact.value {c c' : Context} {t : Term} (h : Exact c c' t.leaves)
    (hc' : c'.HasReserved) (d : Delivery) : Exact c c' (d.value t).leaves := by
  cases d with
  | plain => exact h
  | tagged => exact h.tagged hc' .value

/-- `Exact` of a term that is delivered as a binding. -/
theorem Exact.binding {c c' : Context} {t : Term} (h : Exact c c' t.leaves)
    (hc' : c'.HasReserved) (d : Delivery) : Exact c c' (d.binding t).leaves := by
  cases d with
  | plain => exact h
  | tagged => exact h.tagged hc' .binding

/-! ## Calls and blocks -/

/-- What a node adds to a table that has the reserved literals, its term refers to. -/
abbrev NodeExact (d : Delivery) (k : NameKind) (n : Node) : Prop :=
  ∀ c : Context, c.HasReserved →
    Ends (fun t c' => Exact c c' t.leaves) (fun _ _ => True) ((node d k n).exec c)

/-- What `arguments` add to the table, their terms refer to. -/
abbrev ArgumentsExact (d : Delivery) (ns : List Node) : Prop :=
  ∀ c : Context, c.HasReserved →
    Ends (fun ts c' => Exact c c' (ts.flatMap Term.leaves)) (fun _ _ => True)
      ((arguments d ns).exec c)

/-- What `items` add to the table, their terms refer to. -/
abbrev ItemsExact (ns : List Node) : Prop :=
  ∀ c : Context, c.HasReserved →
    Ends (fun r c' => Exact c c' (r.1.flatMap (·.term.leaves))) (fun _ _ => True)
      ((items ns).exec c)

/-- `Exact` of a call applied to its arguments, or to `Nil` if there are none. -/
theorem Exact.appAll {c c' : Context} {fn : Term} {values : List Term} {args : List Node}
    (h : Exact c c' (fn.leaves ++ values.flatMap Term.leaves)) (hc' : c'.HasReserved)
    (hlength : values.length = args.length) :
    Exact c c' (fn.appAll (if args.isEmpty then [.reserved .nil] else values)).leaves := by
  rw [Term.leaves_appAll]
  cases args with
  | nil =>
    -- The only leaf that comes in addition is the reserved `Nil`.
    rw [List.length_eq_zero_iff.1 hlength] at h
    refine h.rearrange hc' ?_ ?_
    · intro s hs
      rw [List.flatMap_nil, List.append_nil] at hs
      exact List.mem_append_left _ hs
    · intro s hs
      rcases List.mem_append.1 hs with hs | hs
      · exact .inl (List.mem_append_left _ hs)
      · exact .inr ⟨.nil, List.mem_singleton.1 hs⟩
  | cons arg rest => exact h

/-- `Exact` of a call that is structure: its tag comes first and the end of its list last. -/
theorem Exact.structure {c c' : Context} {head : Term} {ts : List Term}
    (h : Exact c c' (head.leaves ++ ts.flatMap Term.leaves)) (hc' : c'.HasReserved) :
    Exact c c' (Term.app (head.tagged .call) (Term.list ts)).leaves := by
  have hleaves : (Term.app (head.tagged .call) (Term.list ts)).leaves =
      .reserved .call :: (head.leaves ++ ts.flatMap Term.leaves) ++ [.reserved .nil] := by
    rw [Term.leaves, Term.leaves_list, Term.tagged, Term.leaves]
    simp [Term.reserved, Term.leaves]
  rw [hleaves]
  -- The leaves in addition are the tag of calls and the end of the list, both reserved.
  refine h.rearrange hc' ?_ ?_
  · intro s hs
    exact List.mem_append_left _ (List.mem_cons_of_mem _ hs)
  · intro s hs
    rcases List.mem_append.1 hs with hs | hs
    · rcases List.mem_cons.1 hs with rfl | hs
      · exact .inr ⟨.call, rfl⟩
      · exact .inl hs
    · exact .inr ⟨.nil, List.mem_singleton.1 hs⟩

/-- `node` of a call: what the callee and the arguments add to the table, the term of the call refers
    to. -/
theorem call_exact (d : Delivery) (k : NameKind) (pos : Nat) (callee : Node) (args : List Node)
    (hcallee : ∀ d k, NodeExact d k callee) (hargs : ∀ d, ArgumentsExact d args) :
    NodeExact d k (.call pos callee args) := by
  intro c hc
  rcases structure_or_ordinary d c.scope (.call pos callee args) with ⟨rfl, h⟩ | h
  · -- structure
    rw [exec_call_structure h]
    refine ((hcallee _ _ c hc).and (node_framed _ _ _ c)).bind ?_
    intro head c₁ hmid
    obtain ⟨hhead, hg₁, -⟩ := hmid
    have hc₁ := hg₁.hasReserved hc
    refine ((hargs _ c₁ hc₁).and (arguments_framed _ _ c₁)).bind ?_
    intro ts c₂ hmid
    obtain ⟨hts, hg₂, -⟩ := hmid
    exact (hhead.append hts hg₁ hg₂).structure (hg₂.hasReserved hc₁)
  · -- ordinary
    rw [exec_call_ordinary h]
    have hempty : c.Grows { c with pending := [] } := .of_eq rfl rfl rfl
    refine ((hcallee _ _ { c with pending := [] } hc).and (node_framed _ _ _ _)).bind ?_
    intro fn c₁ hmid
    obtain ⟨hfn, hg₁, -⟩ := hmid
    have hc₁ := hg₁.hasReserved hc
    rw [exec_noteIf_bind]
    refine Ends.bind ((hargs _ _ ?_).and ((arguments_framed _ _ _).and (arguments_length _ _ _))) ?_
    · exact hc₁
    intro values c₂ hmid
    obtain ⟨hvalues, ⟨hg₂, -⟩, hlength⟩ := hmid
    have hc₂ := hg₂.hasReserved hc₁
    rw [exec_modify_bind, ends_pure]
    have hnoted (es : List Event) : c₁.Grows { c₁ with events := es } := .of_eq rfl rfl rfl
    -- Emptying the queue and reporting the call leave the table as it is.
    have hall := (hfn.append (hvalues.after (hnoted _) rfl) hg₁ ((hnoted _).trans hg₂)).after
      hempty rfl
    exact ((hall.appAll hc₂ hlength).value hc₂ d).before rfl

/-- `items` of one more item: `openScope` leaves the table as it is. -/
theorem items_cons_exact (n : Node) (rest : List Node) (hn : NodeExact .plain .ordinary n)
    (hrest : ItemsExact rest) : ItemsExact (n :: rest) := by
  intro c hc
  rw [items, exec_modifyGet_bind]
  have hopened := c.grows_openScope
  have hc₀ := hopened.hasReserved hc
  refine ((hn _ hc₀).and (node_framed _ _ _ _)).bind ?_
  intro t c₁ hmid
  obtain ⟨ht, hg₁, -⟩ := hmid
  refine ((hrest c₁ (hg₁.hasReserved hc₀)).and (items_grown _ c₁)).bind ?_
  intro r c₂ hmid
  obtain ⟨hr, hg₂⟩ := hmid
  -- The item and the rest add to the table one after the other.
  exact (ht.append hr hg₁ hg₂).after hopened c.literals_openScope

/-- `block` is exact if its items are. -/
theorem block_exact_of_items (ns : List Node) (h : ItemsExact (itemsOrNil ns)) (c : Context)
    (hc : c.HasReserved) :
    Ends (fun t c' => Exact c c' t.leaves) (fun _ _ => True) ((block ns).exec c) := by
  rw [block_eq, exec_get_bind]
  refine ((h c hc).and ((items_grown _ c).and (items_length _ c))).bind ?_
  intro r c₁ hmid
  obtain ⟨hr, hg, hlength⟩ := hmid
  obtain ⟨steps, deferred⟩ := r
  -- The fold may put a later step first, but it keeps the leaves of all of them.
  have hsteps : steps ≠ [] := ne_nil_of_length_itemsOrNil hlength
  refine (hr.rearrange (hg.hasReserved hc) ?_ ?_).before rfl
  · intro s hs
    exact (BlockStep.mem_leaves_chain hsteps).2 hs
  · intro s hs
    exact .inl ((BlockStep.mem_leaves_chain hsteps).1 hs)

/-- All of lowering is exact: `node`, `arguments` and `items`, by `Lower.induct`. -/
private theorem exact_all :
    (∀ d k n, NodeExact d k n) ∧ (∀ d ns, ArgumentsExact d ns) ∧ ∀ ns, ItemsExact ns := by
  refine induct NodeExact ArgumentsExact ItemsExact ?_ ?_ ?_ ?_ ?_ call_exact ?_ ?_ ?_
    items_cons_exact
  · -- var
    intro d k pos x c hc
    rw [node]
    refine ((name_exact _ x c).and (name_framed _ x c)).bind ?_
    intro t c₁ hmid
    obtain ⟨ht, hg, -⟩ := hmid
    exact ht.value (hg.hasReserved hc) d
  · -- atom
    intro d k pos x c hc
    rw [node]
    refine ((literal_exact _ c).and (literal_framed _ c)).bind ?_
    intro t c₁ hmid
    obtain ⟨ht, hg, -⟩ := hmid
    exact ht.value (hg.hasReserved hc) d
  · -- text
    intro d k pos content c hc
    rw [node]
    refine ((literal_exact _ c).and (literal_framed _ c)).bind ?_
    intro t c₁ hmid
    obtain ⟨ht, hg, -⟩ := hmid
    exact ht.value (hg.hasReserved hc) d
  · -- binding
    intro d k pos level consume x c hc
    rw [node]
    refine ((queue_exact _ c).and (queue_framed _ c)).bind ?_
    intro t c₁ hmid
    obtain ⟨ht, hg, -⟩ := hmid
    exact ht.binding (hg.hasReserved hc) d
  · -- block
    intro d k pos ns ih c hc
    rw [node]
    exact block_exact_of_items ns ih c hc
  · -- no arguments
    intro d c _
    rw [arguments]
    exact exact_vars c (List.forall_mem_nil _)
  · -- an argument and the rest
    intro d arg rest harg hrest c hc
    rw [arguments]
    refine ((harg c hc).and (node_framed _ _ _ c)).bind ?_
    intro t c₁ hmid
    obtain ⟨ht, hg₁, -⟩ := hmid
    refine ((hrest c₁ (hg₁.hasReserved hc)).and (arguments_framed _ _ c₁)).bind ?_
    intro ts c₂ hmid
    obtain ⟨hts, hg₂, -⟩ := hmid
    exact ht.append hts hg₁ hg₂
  · -- no items
    intro c _
    rw [items]
    exact exact_vars c (List.forall_mem_nil _)

/-- What `node` adds to the table, its term refers to. -/
theorem node_exact (d : Delivery) (k : NameKind) (n : Node) {c : Context} (hc : c.HasReserved) :
    Ends (fun t c' => Exact c c' t.leaves) (fun _ _ => True) ((node d k n).exec c) :=
  exact_all.1 d k n c hc

/-- What `block` adds to the table, its term refers to. -/
theorem block_exact (ns : List Node) {c : Context} (hc : c.HasReserved) :
    Ends (fun t c' => Exact c c' t.leaves) (fun _ _ => True) ((block ns).exec c) :=
  block_exact_of_items ns (exact_all.2.2 _) c hc

end Lower

/-! ## Programs -/

/-- `resolve?` at the start of a program finds all names of the prelude. -/
theorem Context.ne_of_resolve?_initial {settings : Settings} {x : String}
    (h : (initial settings).scope.resolve? x = none) {entry : NameKind × String}
    (hentry : entry ∈ settings.prelude) : entry.2 ≠ x := by
  rw [scope_initial, Scope.resolve?, List.findIdx?_eq_none_iff] at h
  have hmem : ScopeEntry.named entry.1 entry.2 ∈
      (settings.prelude.map fun p => ScopeEntry.named p.1 p.2).reverse :=
    List.mem_reverse.2 (List.mem_map.2 ⟨entry, hentry, rfl⟩)
  simpa [ScopeEntry.named] using h _ hmem

theorem Context.isEffect_iff {c : Context} {x : String} :
    c.isEffect x ↔ c.effectSuffix ≠ "" ∧ c.effectSuffix.length < x.length ∧
      c.effectSuffix.toList <:+ x.toList := by
  simp [isEffect, and_assoc]

/-- The literal table of `lowerAll` is exact. It starts with the reserved atoms and has no literal
    twice. The literals and effects that occur in the term have places in it, and every place after the
    reserved ones is referred to. An effect's entry is an atom that ends in the effect suffix and has
    more to it, and that is neither a built-in operation (`Builtin.ofName?`) nor a name of the prelude.
    -/
theorem lowerAll_literals_exact (settings : Settings) (file : Nat) (items : List Node) (p : Program)
    (h : (Node.lowerAll settings file items).1 = .ok p) :
    ([.atom "Nil", .atom "Value", .atom "Binding", .atom "Call"] <+: p.literals ∧
      p.literals.Nodup) ∧
    (∀ i b, Term.Occurs (.lit i) b p.term ∨ Term.Occurs (.effect i) b p.term →
      i < p.literals.length) ∧
    (∀ i, 4 ≤ i → i < p.literals.length →
      ∃ b, Term.Occurs (.lit i) b p.term ∨ Term.Occurs (.effect i) b p.term) ∧
    ∀ i b, Term.Occurs (.effect i) b p.term →
      ∃ x, p.literals[i]? = some (.atom x) ∧ settings.effectSuffix ≠ "" ∧
        settings.effectSuffix.length < x.length ∧ settings.effectSuffix.toList <:+ x.toList ∧
        Builtin.ofName? x = none ∧ ∀ entry ∈ settings.prelude, entry.2 ≠ x := by
  obtain ⟨c, hrun, hliterals⟩ := Node.lowerAll_eq_ok_iff.1 h
  have hgrows : (Node.start settings file items).Grows c :=
    ((Lower.block_framed items _).of_ok hrun).1
  have hstart : (Node.start settings file items).HasReserved := List.prefix_refl _
  have hexact : Lower.Exact (Node.start settings file items) c p.term.leaves :=
    (Lower.block_exact items hstart).of_ok hrun
  rw [hliterals]
  -- Literals and effects are leaves, so that `Exact` speaks of all their occurrences.
  have hsound {s : Term} (hs : s.children = []) {b : Nat} (hb : Term.Occurs s b p.term) :
      Lower.LeafSound (Node.start settings file items) c s :=
    hexact.sound s (Term.mem_leaves_iff.2 ⟨hs, b, hb⟩)
  have hnodup : LiteralTable.reserved.toList.Nodup := by decide
  refine ⟨⟨hgrows.literals, hgrows.nodup hnodup⟩, ?_, ?_, ?_⟩
  · -- every reference has a place
    intro i b hb
    rcases hb with hb | hb
    · exact hsound rfl hb
    · obtain ⟨x, hx, -⟩ := hsound rfl hb
      exact (List.getElem?_eq_some_iff.1 hx).1
  · -- every place has a reference
    intro i hi hlt
    rcases hexact.covers i hi hlt with hmem | hmem
    · obtain ⟨b, hb⟩ := (Term.mem_leaves_iff.1 hmem).2
      exact ⟨b, .inl hb⟩
    · obtain ⟨b, hb⟩ := (Term.mem_leaves_iff.1 hmem).2
      exact ⟨b, .inr hb⟩
  · -- effects: the prelude is in scope at the start, and nothing takes it out
    intro i b hb
    obtain ⟨x, hx, heffect, hbuiltin, hresolve⟩ := hsound rfl hb
    obtain ⟨hne, hlonger, hsuffix⟩ := Context.isEffect_iff.1 heffect
    exact ⟨x, hx, hne, hlonger, hsuffix, hbuiltin,
      fun entry hentry => Context.ne_of_resolve?_initial hresolve hentry⟩

/-- An effect, and one text that an atom of the same content stands beside. -/
theorem lowerAll_literals_exact_effect :
    let settings : Settings := ⟨[(.ordinary, "f")], "!"⟩
    let items : List Node := [.callNamed 0 "print!" [.text 0 "hi", .bind 0 "reply"],
      .callNamed 0 "f" [.var 0 "reply", .atom 0 "hi", .text 0 "hi"]]
    let program : Program :=
      ⟨.abs (.app (.app (.app (.effect 4) (.lit 5)) (.lit 6))
          (.abs (.app (.app (.app (.var 2) (.var 0)) (.lit 7)) (.lit 5)))),
        [.atom "Nil", .atom "Value", .atom "Binding", .atom "Call", .atom "print!", .text "hi",
          .atom "reply", .atom "hi"]⟩
    (Node.lowerAll settings 0 items).1 = .ok program ∧ program.literals.Nodup ∧
      ∃ b, Term.Occurs (.lit 7) b program.term ∨ Term.Occurs (.effect 7) b program.term := by
  intro settings items program
  have hlower : (Node.lowerAll settings 0 items).1 = .ok program := by cbv
  obtain ⟨⟨-, hnodup⟩, -, hcovers, -⟩ := lowerAll_literals_exact settings 0 items program hlower
  exact ⟨hlower, hnodup, hcovers 7 (by decide) (by decide)⟩

end Unsugar
