import Mathlib
import Unsugar.Proofs.Lookup
import Unsugar.Proofs.Shift

/-!
# More names in scope

Entries are put into a scope somewhere between its innermost and its outermost entry. If no name that
is looked up meets them, lowering takes the same course as without them, and every index that reaches
past them is larger by their number. That a name does not meet them has two reasons in practice: they
carry other names, or they stand outside of everything else and the name is found further in. The
second is known only of names that mean something, so there the comparison is about runs that succeed.

## Key results

- `Scope.resolve?_insert`, `Scope.classify?_insert`: looking up a name past the inserted entries
- `Context.openScope_insert`, `Context.truncate_insert`: scopes open and close inside of them
- `Lower.node_weakened`, `Lower.block_weakened`: lowering with and without them
- `lower_onlyShifts`: one entry whose name is not used
-/

namespace Unsugar

/-- Entries that are put into a scope, right inside of its `outer` outermost ones. -/
structure Insertion where
  outer : Nat
  added : List ScopeEntry

/-! ## Scopes -/

namespace Scope

variable {w : Insertion} {s : Scope} {x : String}

/-- How many entries of a scope stand inside of those that are inserted. -/
def inside (w : Insertion) (s : Scope) : Nat := s.depth - w.outer

/-- `insert w s` puts the entries of `w` into `s`. -/
def insert (w : Insertion) (s : Scope) : Scope :=
  ⟨s.entries.take (s.inside w) ++ w.added ++ s.entries.drop (s.inside w)⟩

/-- A name that does not meet the inserted entries: they carry other names, or an entry inside of them
    carries it. -/
def Unaffected (w : Insertion) (s : Scope) (x : String) : Prop :=
  (∀ e ∈ w.added, e.name? ≠ some x) ∨ ∃ e ∈ s.entries.take (s.inside w), e.name? = some x

/-- `Unaffected` names that nothing inside carries: the inserted entries carry others. -/
theorem Unaffected.name_ne (h : s.Unaffected w x)
    (hinside : ∀ e ∈ s.entries.take (s.inside w), e.name? ≠ some x) :
    ∀ e ∈ w.added, e.name? ≠ some x := by
  rcases h with h | ⟨e, he, hx⟩
  · exact h
  · exact absurd hx (hinside e he)

/-- The entries of a scope, split where `insert` puts others. -/
theorem entries_eq_inside (w : Insertion) (s : Scope) :
    s.entries = s.entries.take (s.inside w) ++ s.entries.drop (s.inside w) :=
  (List.take_append_drop _ _).symm

theorem length_take_inside (w : Insertion) (s : Scope) :
    (s.entries.take (s.inside w)).length = s.inside w := by
  rw [List.length_take, inside, depth]
  omega

/-- `resolve?` after `insert` finds the same entry, whose index is larger if it stands outside. -/
theorem resolve?_insert (h : s.Unaffected w x) :
    (s.insert w).resolve? x =
      (s.resolve? x).map fun i => if i < s.inside w then i else i + w.added.length := by
  have hlength := length_take_inside w s
  rw [insert, resolve?, resolve?]
  conv_rhs => rw [entries_eq_inside w s]
  rw [List.findIdx?_append, List.findIdx?_append, List.findIdx?_append, List.length_append, hlength]
  cases hinner : (s.entries.take (s.inside w)).findIdx? (·.name? = some x) with
  | some i =>
    -- The name is found inside of the inserted entries.
    have hi : i < s.inside w := by
      rw [← hlength]
      exact (List.findIdx?_eq_some_iff_getElem.1 hinner).1
    simp [hi]
  | none =>
    -- The name is found outside of them, or nowhere.
    have hinside : ∀ e ∈ s.entries.take (s.inside w), e.name? ≠ some x := by
      rw [List.findIdx?_eq_none_iff] at hinner
      simpa using hinner
    have hadded : w.added.findIdx? (·.name? = some x) = none := by
      simpa [List.findIdx?_eq_none_iff] using h.name_ne hinside
    rw [hadded]
    cases (s.entries.drop (s.inside w)).findIdx? (·.name? = some x) with
    | none => rfl
    | some i =>
      simp only [Option.none_or, Option.map_none, Option.map_some, Option.some.injEq]
      rw [if_neg (by omega)]
      omega

/-- `classify?` after `insert`: a name keeps its kind. -/
theorem classify?_insert (h : s.Unaffected w x) : (s.insert w).classify? x = s.classify? x := by
  rw [insert, classify?, classify?]
  conv_rhs => rw [entries_eq_inside w s]
  rw [List.find?_append, List.find?_append, List.find?_append]
  cases hinner : (s.entries.take (s.inside w)).find? (·.name? = some x) with
  -- found inside
  | some e => rfl
  | none =>
    -- Found outside or nowhere: the inserted entries are passed over.
    have hinside : ∀ e ∈ s.entries.take (s.inside w), e.name? ≠ some x := by
      simpa [List.find?_eq_none] using hinner
    have hadded : w.added.find? (·.name? = some x) = none := by
      simpa [List.find?_eq_none] using h.name_ne hinside
    rw [hadded]
    rfl

theorem isMacro_insert {n : Node} (h : ∀ x ∈ n.openNames, s.Unaffected w x) :
    (s.insert w).isMacro n = s.isMacro n :=
  isMacro_congr fun x hx => classify?_insert (h x hx)

theorem hasBindings_insert {n : Node} (h : ∀ x ∈ n.openNames, s.Unaffected w x) :
    (s.insert w).hasBindings n = s.hasBindings n :=
  hasBindings_congr n fun x hx => classify?_insert (h x hx)

/-- `insert` under further entries: what is pushed onto a scope stays inside of the inserted entries.
    -/
theorem insert_append (hs : w.outer ≤ s.depth) (inner : List ScopeEntry) :
    (Scope.mk (inner ++ s.entries)).insert w = ⟨inner ++ (s.insert w).entries⟩ := by
  have hinside : (Scope.mk (inner ++ s.entries)).inside w = inner.length + s.inside w := by
    unfold inside depth at *
    rw [List.length_append]
    omega
  rw [insert, hinside, insert, List.take_length_add_append, List.drop_length_add_append]
  simp only [List.append_assoc]

/-- `truncate` after `insert`: a scope that was only added to is cut back in the same way. -/
theorem truncate_insert {s' : Scope} (hs : w.outer ≤ s.depth) (h : s.entries <:+ s'.entries) :
    (s'.insert w).truncate (s.insert w).depth = (s'.truncate s.depth).insert w := by
  obtain ⟨inner, hinner⟩ := h
  have hs' : s' = ⟨inner ++ s.entries⟩ := by rw [hinner]
  rw [hs', insert_append hs, truncate_append, truncate_append]

end Scope

/-! ## Contexts -/

namespace Context

/-- `insert w c` puts the entries of `w` into the scope of `c`. -/
def insert (w : Insertion) (c : Context) : Context := { c with scope := c.scope.insert w }

/-- `Context.openScope` after `insert` opens inside of the inserted entries. -/
theorem openScope_insert {w : Insertion} {c : Context} (hc : w.outer ≤ c.scope.depth) :
    (c.insert w).openScope = (c.openScope.1, c.openScope.2.insert w) := by
  have hscope := Scope.insert_append hc (Pending.openedEntries c.pending)
  simp only [openScope_eq, insert, hscope]

/-- `inside` after `openScope`: at least one entry is opened. -/
theorem inside_openScope {w : Insertion} {c : Context} (hc : w.outer ≤ c.scope.depth) :
    c.openScope.2.scope.inside w = c.scope.inside w + max 1 c.pending.length := by
  have hdepth := c.depth_openScope
  unfold Scope.inside
  omega

end Context

/-- A name to which an insertion does no harm: wherever it is looked up, it does not meet the inserted
    entries. If only the success of a run counts, it may also mean nothing there. -/
def Insertion.Harmless (w : Insertion) (onSuccess : Prop) (suffix x : String) : Prop :=
  ∀ c : Context, c.effectSuffix = suffix → c.scope.Unaffected w x ∨ (onSuccess ∧ ¬ c.Knows x)

/-! ## Runs with and without the inserted entries -/

namespace Lower

variable {α β : Type} {w : Insertion} {onSuccess : Prop} {suffix : String}

/-- With the inserted entries, `y` ends as `x` does without them, up to a change `g` of the result.
    Under `onSuccess` this is only said of a run of `x` that succeeds. -/
def Weakened (w : Insertion) (onSuccess : Prop) (c : Context) (g : α → α) (x y : Lower α) : Prop :=
  (onSuccess → ∃ a, (x.exec c).1 = .ok a) →
    y.exec (c.insert w) = ((x.exec c).1.map g, (x.exec c).2.insert w)

/-- `pure` of results that `g` takes to one another. -/
theorem weakened_pure {g : α → α} {a b : α} (hab : b = g a) (c : Context) :
    Weakened w onSuccess c g (pure a) (pure b) := by
  intro _
  rw [hab]
  rfl

/-- `>>=` keeps `Weakened`. If a sequence succeeds, so do its parts, which are therefore compared one
    after the other. -/
theorem Weakened.bind {c : Context} {g : α → α} {g' : β → β} {x y : Lower α} {f f' : α → Lower β}
    (hx : Weakened w onSuccess c g x y)
    (hf : ∀ a c', x.exec c = (.ok a, c') → Weakened w onSuccess c' g' (f a) (f' (g a))) :
    Weakened w onSuccess c g' (x >>= f) (y >>= f') := by
  intro hok
  rw [exec_bind] at hok
  rw [exec_bind, exec_bind]
  match hrun : x.exec c with
  | (.ok a, c') =>
    rw [hrun] at hok
    have hy := hx fun _ => ⟨a, by rw [hrun]⟩
    rw [hrun] at hy
    rw [hy]
    exact hf a c' hrun hok
  | (.error e, c') =>
    rw [hrun] at hok
    -- A first part that fails is compared only if failures are.
    have hy := hx fun hsuccess => by
      obtain ⟨b, hb⟩ := hok hsuccess
      cases hb
    rw [hrun] at hy
    rw [hy]
    rfl

/-- `>>=` after a `Framed` part, which gives its scope back: the rest is lowered under the same names.
    -/
theorem Weakened.bind_framed {c : Context} {g : α → α} {g' : β → β} {x y : Lower α}
    {f f' : α → Lower β} (hx : Weakened w onSuccess c g x y) (hframed : Framed c (x.exec c))
    (hf : ∀ a c', c'.scope = c.scope → c'.effectSuffix = c.effectSuffix →
      Weakened w onSuccess c' g' (f a) (f' (g a))) :
    Weakened w onSuccess c g' (x >>= f) (y >>= f') := by
  refine hx.bind ?_
  intro a c' hrun
  obtain ⟨hgrows, hscope⟩ := hframed.of_ok hrun
  exact hf a c' hscope hgrows.effectSuffix

/-- `get` in front sees the inserted entries. -/
theorem weakened_get_bind {c : Context} {g : α → α} {f f' : Context → Lower α}
    (h : Weakened w onSuccess c g (f c) (f' (c.insert w))) :
    Weakened w onSuccess c g (get >>= f) (get >>= f') := h

/-- `modifyGet` in front, of an operation that commutes with `insert`. -/
theorem weakened_modifyGet_bind {c : Context} {g : β → β} {op : Context → α × Context}
    {f f' : α → Lower β} (hop : op (c.insert w) = ((op c).1, (op c).2.insert w))
    (h : Weakened w onSuccess (op c).2 g (f (op c).1) (f' (op c).1)) :
    Weakened w onSuccess c g (modifyGet op >>= f) (modifyGet op >>= f') := by
  intro hok
  rw [exec_modifyGet_bind, exec_modifyGet_bind, hop]
  exact h hok

/-- `modify` in front, of operations that commute with `insert`. -/
theorem weakened_modify_bind {c : Context} {g : β → β} {op op' : Context → Context}
    {f f' : Unit → Lower β} (hop : op' (c.insert w) = (op c).insert w)
    (h : Weakened w onSuccess (op c) g (f ()) (f' ())) :
    Weakened w onSuccess c g (modify op >>= f) (modify op' >>= f') := by
  intro hok
  rw [exec_modify_bind, exec_modify_bind, hop]
  exact h hok

/-- `noteIf` in front changes the events only. -/
theorem weakened_noteIf_bind {c : Context} {g : β → β} {condition : Bool} {e : Event}
    {f f' : Unit → Lower β}
    (h : ∀ events, Weakened w onSuccess { c with events } g (f ()) (f' ())) :
    Weakened w onSuccess c g (noteIf condition e >>= f) (noteIf condition e >>= f') := by
  intro hok
  rw [exec_noteIf_bind] at hok
  rw [exec_noteIf_bind, exec_noteIf_bind]
  exact h _ hok

/-- `if` on the same condition on both sides. -/
theorem weakened_ite {c : Context} {g : α → α} {b : Bool} {x₁ x₂ y₁ y₂ : Lower α}
    (ht : b = true → Weakened w onSuccess c g x₁ y₁)
    (hf : b = false → Weakened w onSuccess c g x₂ y₂) :
    Weakened w onSuccess c g (if b then x₁ else x₂) (if b then y₁ else y₂) := by
  cases b with
  | true => exact ht rfl
  | false => exact hf rfl

/-! ## Single steps -/

/-- `literal` does not look at the scope. -/
theorem literal_weakened (l : Literal) (c : Context) (cutoff : Nat) :
    Weakened w onSuccess c (Term.shift w.added.length cutoff) (literal l) (literal l) :=
  fun _ => rfl

/-- `queue` does not look at the scope. -/
theorem queue_weakened (b : Pending) (c : Context) (cutoff : Nat) :
    Weakened w onSuccess c (Term.shift w.added.length cutoff) (queue b) (queue b) :=
  fun _ => rfl

/-- `name` keeps its meaning: a variable is shifted, a built-in term and an effect stay. -/
theorem name_weakened {x : String} {c : Context} (hx : w.Harmless onSuccess suffix x)
    (hc : c.effectSuffix = suffix) (span : Span) :
    Weakened w onSuccess c (Term.shift w.added.length (c.scope.inside w)) (name span x)
      (name span x) := by
  intro hok
  rcases hx c hc with hx | ⟨hsuccess, hunknown⟩
  · have heffect : (c.insert w).isEffect x = c.isEffect x := rfl
    rw [name, exec_get_bind, exec_get_bind, heffect,
      show (c.insert w).scope = c.scope.insert w from rfl, Scope.resolve?_insert hx]
    cases c.scope.resolve? x with
    | some i => rfl
    | none =>
      cases Builtin.ofName? x with
      | some b =>
        show (Except.ok b.term, _) = (Except.ok (b.term.shift _ _), _)
        rw [Builtin.shift_term]
        rfl
      | none => cases c.isEffect x <;> rfl
  · -- A name without a meaning fails, but the run is to succeed.
    obtain ⟨t, ht⟩ := hok hsuccess
    exact absurd ((name_knows span x c).of_fst_eq_ok ht) hunknown

theorem shift_value (amount cutoff : Nat) (d : Delivery) (t : Term) :
    (d.value t).shift amount cutoff = d.value (t.shift amount cutoff) := by
  cases d <;> rfl

theorem shift_binding (amount cutoff : Nat) (d : Delivery) (t : Term) :
    (d.binding t).shift amount cutoff = d.binding (t.shift amount cutoff) := by
  cases d <;> rfl

/-- `closeBlock` takes away what the items opened, and leaves the inserted entries. -/
theorem closeBlock_weakened {c c₁ : Context} (hc : w.outer ≤ c.scope.depth) (hgrows : c.Grows c₁)
    (steps : List BlockStep) (deferred : List Pending) (cutoff : Nat) :
    Weakened w onSuccess c₁ (Term.shift w.added.length cutoff)
      (closeBlock c.scope.depth steps deferred)
      (closeBlock (c.insert w).scope.depth (BlockStep.shiftFrom w.added.length cutoff steps)
        deferred) := by
  rw [closeBlock, closeBlock, BlockStep.map_opened_shiftFrom]
  refine weakened_modify_bind rfl (weakened_modify_bind ?_ (weakened_pure ?_ _))
  · -- the scope
    have hscope := Scope.truncate_insert hc hgrows.scope
    simp only [Context.note, Context.setPending, Context.truncate, Context.insert] at hscope ⊢
    rw [hscope]
  · -- the term
    exact BlockStep.chain_shiftFrom _ _ _

/-! ## All of lowering -/

/-- A node in whose scope entries are inserted that do its names no harm. -/
abbrev NodeWeakened (w : Insertion) (onSuccess : Prop) (suffix : String) (d : Delivery) (k : NameKind)
    (n : Node) : Prop :=
  (∀ x ∈ n.names, w.Harmless onSuccess suffix x) →
    ∀ c : Context, w.outer ≤ c.scope.depth → c.effectSuffix = suffix →
      Weakened w onSuccess c (Term.shift w.added.length (c.scope.inside w)) (node d k n) (node d k n)

/-- Arguments in whose scope entries are inserted that do their names no harm. -/
abbrev ArgumentsWeakened (w : Insertion) (onSuccess : Prop) (suffix : String) (d : Delivery)
    (ns : List Node) : Prop :=
  (∀ x ∈ Node.namesAll ns, w.Harmless onSuccess suffix x) →
    ∀ c : Context, w.outer ≤ c.scope.depth → c.effectSuffix = suffix →
      Weakened w onSuccess c (List.map (Term.shift w.added.length (c.scope.inside w)))
        (arguments d ns) (arguments d ns)

/-- Items are shifted one after the other; what they defer carries no indices. -/
abbrev shiftSteps (w : Insertion) (c : Context) (r : List BlockStep × List Pending) :
    List BlockStep × List Pending :=
  (BlockStep.shiftFrom w.added.length (c.scope.inside w) r.1, r.2)

/-- Items in whose scope entries are inserted that do their names no harm. -/
abbrev ItemsWeakened (w : Insertion) (onSuccess : Prop) (suffix : String) (ns : List Node) : Prop :=
  (∀ x ∈ Node.namesAll ns, w.Harmless onSuccess suffix x) →
    ∀ c : Context, w.outer ≤ c.scope.depth → c.effectSuffix = suffix →
      Weakened w onSuccess c (shiftSteps w c) (items ns) (items ns)

/-- `node` of a call, from its callee and its arguments. Whether it is structure is asked before it is
    lowered, so the names that decide it have to be unaffected, or the run fails. -/
theorem call_weakened (d : Delivery) (k : NameKind) (pos : Nat) (callee : Node) (args : List Node)
    (hcallee : ∀ d k, NodeWeakened w onSuccess suffix d k callee)
    (hargs : ∀ d, ArgumentsWeakened w onSuccess suffix d args) :
    NodeWeakened w onSuccess suffix d k (.call pos callee args) := by
  intro hnames c hc hsuffix
  have hcalleeNames : ∀ x ∈ callee.names, w.Harmless onSuccess suffix x := by
    intro x hx
    exact hnames x (by rw [Node.names]; exact List.mem_append_left _ hx)
  have hargsNames : ∀ x ∈ Node.namesAll args, w.Harmless onSuccess suffix x := by
    intro x hx
    exact hnames x (by rw [Node.names]; exact List.mem_append_right _ hx)
  by_cases hopen : ∀ x ∈ (Node.call pos callee args).openNames, c.scope.Unaffected w x
  · -- All names that are asked for before the call is lowered give the same answer.
    have hopenCallee : ∀ x ∈ callee.openNames, c.scope.Unaffected w x := by
      intro x hx
      exact hopen x (by rw [Node.openNames]; exact List.mem_append_left _ hx)
    rw [node]
    refine weakened_get_bind ?_
    dsimp only
    rw [show (c.insert w).scope = c.scope.insert w from rfl, Scope.hasBindings_insert hopen,
      Scope.isMacro_insert hopenCallee]
    refine weakened_ite (fun _ => ?_) (fun _ => ?_)
    · -- structure
      refine (hcallee _ _ hcalleeNames c hc hsuffix).bind_framed (node_framed _ _ _ c) ?_
      intro head c₁ hscope₁ hsuffix₁
      refine (hargs _ hargsNames c₁ (hscope₁ ▸ hc) (hsuffix₁.trans hsuffix)).bind_framed
        (arguments_framed _ _ c₁) ?_
      intro ts c₂ hscope₂ _
      refine weakened_pure ?_ c₂
      rw [hscope₁, Term.shift, Term.shift_tagged, Term.shift_list]
    · -- ordinary
      refine weakened_modifyGet_bind rfl ?_
      refine (hcallee _ _ hcalleeNames c.takePending.2 hc hsuffix).bind_framed
        (node_framed _ _ _ _) ?_
      intro fn c₁ hscope₁ hsuffix₁
      have hscope₁ : c₁.scope = c.scope := hscope₁
      refine weakened_noteIf_bind fun events => ?_
      refine (hargs _ hargsNames { c₁ with events } (hscope₁ ▸ hc)
        (hsuffix₁.trans hsuffix)).bind_framed (arguments_framed _ _ _) ?_
      intro values c₂ hscope₂ _
      refine weakened_modify_bind rfl (weakened_pure ?_ _)
      rw [shift_value, Term.shift_appAll, hscope₁]
      -- A call without arguments is applied to `Nil`, which has no indices.
      cases args.isEmpty <;> rfl
  · -- A name that gives another answer means nothing, so the run fails when it comes to it.
    rw [not_forall] at hopen
    obtain ⟨x, hopen⟩ := hopen
    rw [Classical.not_imp] at hopen
    obtain ⟨hx, haffected⟩ := hopen
    intro hok
    have hharmless := hnames x (Node.openNames_subset _ hx) c hsuffix
    obtain ⟨hsuccess, hunknown⟩ := hharmless.resolve_left haffected
    obtain ⟨t, ht⟩ := hok hsuccess
    exact absurd ((node_knows d k _ c).of_fst_eq_ok ht x hx) hunknown

/-- `items` of one more item, whose scope is opened inside of the inserted entries. -/
theorem items_cons_weakened (n : Node) (rest : List Node)
    (hn : NodeWeakened w onSuccess suffix .plain .ordinary n)
    (hrest : ItemsWeakened w onSuccess suffix rest) :
    ItemsWeakened w onSuccess suffix (n :: rest) := by
  intro hnames c hc hsuffix
  rw [Node.namesAll, List.forall_mem_append] at hnames
  have hdepth : w.outer ≤ c.openScope.2.scope.depth := by
    rw [c.depth_openScope]
    omega
  have hopened : c.openScope.2.effectSuffix = suffix := c.effectSuffix_openScope.trans hsuffix
  rw [items]
  refine weakened_modifyGet_bind (Context.openScope_insert hc) ?_
  refine (hn hnames.1 _ hdepth hopened).bind_framed (node_framed _ _ _ _) ?_
  intro t c₁ hscope₁ hsuffix₁
  refine (hrest hnames.2 c₁ (hscope₁ ▸ hdepth) (hsuffix₁.trans hopened)).bind ?_
  intro r c₂ _
  refine weakened_pure ?_ c₂
  -- The item stands inside of what was opened for it, and so does the rest.
  simp only [shiftSteps, BlockStep.shiftFrom_cons, hscope₁, Context.inside_openScope hc,
    Context.openScope_fst]

/-- `block` is `Weakened` if its items are. -/
theorem block_weakened_of_items (ns : List Node)
    (h : ItemsWeakened w onSuccess suffix (itemsOrNil ns))
    (hnames : ∀ x ∈ Node.namesAll ns, w.Harmless onSuccess suffix x) {c : Context}
    (hc : w.outer ≤ c.scope.depth) (hsuffix : c.effectSuffix = suffix) :
    Weakened w onSuccess c (Term.shift w.added.length (c.scope.inside w)) (block ns) (block ns) := by
  rw [block_eq]
  refine weakened_get_bind ((h ?_ c hc hsuffix).bind ?_)
  · rw [namesAll_itemsOrNil]
    exact hnames
  · intro r c₁ hrun
    have hgrows : c.Grows c₁ := (items_grown _ c).of_ok hrun
    exact closeBlock_weakened hc hgrows r.1 r.2 _

/-- All of lowering with and without the inserted entries: `node`, `arguments` and `items`, by
    `Lower.induct`. -/
private theorem weakened_all :
    (∀ d k n, NodeWeakened w onSuccess suffix d k n) ∧
      (∀ d ns, ArgumentsWeakened w onSuccess suffix d ns) ∧
      ∀ ns, ItemsWeakened w onSuccess suffix ns := by
  refine induct (NodeWeakened w onSuccess suffix) (ArgumentsWeakened w onSuccess suffix)
    (ItemsWeakened w onSuccess suffix) ?_ ?_ ?_ ?_ ?_ call_weakened ?_ ?_ ?_ items_cons_weakened
  · -- var
    intro d k pos x hnames c _ hsuffix
    have hx := hnames x (by rw [Node.names]; exact List.mem_singleton_self x)
    rw [node]
    exact (name_weakened hx hsuffix _).bind fun t c' _ => weakened_pure (shift_value _ _ d t).symm c'
  · -- atom
    intro d k pos x _ c _ _
    rw [node]
    exact (literal_weakened _ c _).bind fun t c' _ => weakened_pure (shift_value _ _ d t).symm c'
  · -- text
    intro d k pos content _ c _ _
    rw [node]
    exact (literal_weakened _ c _).bind fun t c' _ => weakened_pure (shift_value _ _ d t).symm c'
  · -- binding
    intro d k pos level consume x _ c _ _
    rw [node]
    exact (queue_weakened _ c _).bind fun t c' _ => weakened_pure (shift_binding _ _ d t).symm c'
  · -- block
    intro d k pos ns ih hnames c hc hsuffix
    rw [node]
    exact block_weakened_of_items ns ih (by rwa [Node.names] at hnames) hc hsuffix
  · -- no arguments
    intro d _ c _ _
    rw [arguments]
    exact weakened_pure rfl c
  · -- an argument and the rest
    intro d arg rest harg hrest hnames c hc hsuffix
    rw [Node.namesAll, List.forall_mem_append] at hnames
    rw [arguments]
    refine (harg hnames.1 c hc hsuffix).bind_framed (node_framed _ _ _ c) ?_
    intro t c₁ hscope₁ hsuffix₁
    refine (hrest hnames.2 c₁ (hscope₁ ▸ hc) (hsuffix₁.trans hsuffix)).bind_framed
      (arguments_framed _ _ c₁) ?_
    intro ts c₂ _ _
    refine weakened_pure ?_ c₂
    rw [hscope₁, List.map_cons]
  · -- no items
    intro _ c _ _
    rw [items]
    exact weakened_pure rfl c

/-- `node` with and without the inserted entries. -/
theorem node_weakened (d : Delivery) (k : NameKind) (n : Node) :
    NodeWeakened w onSuccess suffix d k n :=
  weakened_all.1 d k n

/-- `block` with and without the inserted entries. -/
theorem block_weakened {ns : List Node}
    (hnames : ∀ x ∈ Node.namesAll ns, w.Harmless onSuccess suffix x) {c : Context}
    (hc : w.outer ≤ c.scope.depth) (hsuffix : c.effectSuffix = suffix) :
    Weakened w onSuccess c (Term.shift w.added.length (c.scope.inside w)) (block ns) (block ns) :=
  block_weakened_of_items ns (weakened_all.2.2 _) hnames hc hsuffix

/-! ## One entry -/

/-- One entry more, between the inner and the outer ones, changes a computation by shifting only: it
    fails in the same way, or gives the term with its free indices from `inner` on shifted by one. The
    context it ends in, also after a failure, differs in the same entry of its scope and in nothing
    else. -/
def OnlyShifts (x : Lower Term) (c : Context) (inner outer : List ScopeEntry) (e : ScopeEntry) :
    Prop :=
  let before := x.exec { c with scope := ⟨inner ++ outer⟩ }
  let after := x.exec { c with scope := ⟨inner ++ e :: outer⟩ }
  after.1 = before.1.map (Term.shift 1 inner.length) ∧
    ∃ inner', before.2.scope = ⟨inner' ++ outer⟩ ∧
      after.2 = { before.2 with scope := ⟨inner' ++ e :: outer⟩ }

/-- `insert` of one entry between the inner and the outer ones. -/
theorem insert_between (inner outer : List ScopeEntry) (e : ScopeEntry) :
    (Scope.mk (inner ++ outer)).insert ⟨outer.length, [e]⟩ = ⟨inner ++ e :: outer⟩ := by
  have houter : (Scope.mk outer).inside ⟨outer.length, [e]⟩ = 0 := Nat.sub_self _
  have hle : (Insertion.mk outer.length [e]).outer ≤ (Scope.mk outer).depth := Nat.le_refl _
  rw [Scope.insert_append hle inner, Scope.insert, houter]
  rfl

theorem inside_between (inner outer : List ScopeEntry) (e : ScopeEntry) :
    (Scope.mk (inner ++ outer)).inside ⟨outer.length, [e]⟩ = inner.length := by
  simp [Scope.inside, Scope.depth]

/-- `OnlyShifts` from `Weakened`: the comparison for one entry in the terms of the scopes themselves.
    -/
theorem Weakened.onlyShifts {x : Lower Term} {c : Context} {inner outer : List ScopeEntry}
    {e : ScopeEntry}
    (h : Weakened ⟨outer.length, [e]⟩ False { c with scope := ⟨inner ++ outer⟩ }
      (Term.shift 1 ((Scope.mk (inner ++ outer)).inside ⟨outer.length, [e]⟩)) x x)
    (hframed : ∀ c, Framed c (x.exec c)) : OnlyShifts x c inner outer e := by
  let start : Context := { c with scope := ⟨inner ++ outer⟩ }
  have hrun := h False.elim
  rw [inside_between, Context.insert, insert_between] at hrun
  -- Whatever the computation leaves open stands inside of what was there at the start.
  obtain ⟨more, hmore⟩ := (hframed start).grows.scope
  have hscope : (x.exec start).2.scope = ⟨(more ++ inner) ++ outer⟩ := by
    rw [List.append_assoc, hmore]
  refine ⟨congrArg Prod.fst hrun, more ++ inner, hscope, ?_⟩
  have hend := congrArg Prod.snd hrun
  rw [Context.insert, hscope, insert_between] at hend
  exact hend

end Lower

/-- `OnlyShifts` for all of lowering (weakening). Whatever the context, an entry of its scope that has
    no name, or a name that is not used in the input, has no influence on `value`, `wrapped` and
    `block` but to shift the indices that reach past it, also where they fail. -/
theorem lower_onlyShifts (c : Context) (inner outer : List ScopeEntry) (e : ScopeEntry) :
    (∀ n : Node, (∀ x ∈ n.names, e.name? ≠ some x) →
      Lower.OnlyShifts (Lower.value n) c inner outer e ∧
        Lower.OnlyShifts (Lower.wrapped n) c inner outer e) ∧
    ∀ items : List Node, (∀ x ∈ Node.namesAll items, e.name? ≠ some x) →
      Lower.OnlyShifts (Lower.block items) c inner outer e := by
  have hharmless {x : String} (hx : e.name? ≠ some x) :
      Insertion.Harmless ⟨outer.length, [e]⟩ False c.effectSuffix x := by
    intro c' _
    exact .inl (.inl (List.forall_mem_singleton.2 hx))
  have hdepth : outer.length ≤ (Scope.mk (inner ++ outer)).depth := by
    simp [Scope.depth]
  refine ⟨?_, ?_⟩
  · -- values and arguments of a macro
    intro n hnames
    have hnode (d : Delivery) : Lower.OnlyShifts (Lower.node d .ordinary n) c inner outer e := by
      refine Lower.Weakened.onlyShifts ?_ (Lower.node_framed d .ordinary n)
      exact Lower.node_weakened d .ordinary n (fun x hx => hharmless (hnames x hx)) _ hdepth rfl
    exact ⟨hnode .plain, hnode .tagged⟩
  · -- blocks
    intro items hnames
    refine Lower.Weakened.onlyShifts ?_ (Lower.block_framed items)
    exact Lower.block_weakened (fun x hx => hharmless (hnames x hx)) hdepth rfl

/-- An entry between a function and a macro. Its name is bound in the input, but not used there. -/
theorem lower_onlyShifts_between :
    let c := Context.initial ⟨[], "!"⟩
    let inner := [ScopeEntry.named .ordinary "g"]
    let outer := [ScopeEntry.named .macroName "let"]
    let e := ScopeEntry.named .macroName "y"
    let items : List Node := [
      .callNamed 0 "let" [.bindLevel 0 2 "f", .bind 0 "y",
        .block 0 [.callNamed 0 "g" [.var 0 "f"]]],
      .callNamed 0 "let" [.var 0 "f", .callNamed 0 "=" [.var 0 "g", .var 0 "print!"]]]
    let t (i : Nat) := Term.abs (.app
      (.app (.app (.app (.var i) (.app (.lit 2) (.lit 4))) (.app (.lit 2) (.lit 5)))
        (.abs (.abs (.app (.var 3) (.var 1)))))
      (.abs (.app (.app (.var (i + 1)) (.app (.lit 1) (.var 0)))
        (.app (.lit 1) (.app (.app Builtin.define.term (.var 2)) (.effect 6))))))
    (∀ x ∈ Node.namesAll items, e.name? ≠ some x) ∧
      ((Lower.block items).exec { c with scope := ⟨inner ++ outer⟩ }).1 = .ok (t 2) ∧
      ((Lower.block items).exec { c with scope := ⟨inner ++ e :: outer⟩ }).1 = .ok (t 3) := by
  intro c inner outer e items t
  have hnames : ∀ x ∈ Node.namesAll items, e.name? ≠ some x := by decide
  have hbefore : ((Lower.block items).exec { c with scope := ⟨inner ++ outer⟩ }).1 = .ok (t 2) := by
    cbv
  have hafter := ((lower_onlyShifts c inner outer e).2 items hnames).1
  refine ⟨hnames, hbefore, ?_⟩
  rw [hafter, hbefore]
  rfl

end Unsugar
