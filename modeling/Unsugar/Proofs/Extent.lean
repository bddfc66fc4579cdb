import Mathlib
import Unsugar.Proofs.Blame
import Unsugar.Proofs.Isolation
import Unsugar.Proofs.NameResolution
import Unsugar.Proofs.Scoping

/-!
# How far out a binding is visible

A binding of level `k` is opened right after the item that it stands in. When the block ends, a copy one
level lower is left for the item after the block, and so on outwards: the name is in scope after the
binding and after each of the `k - 1` innermost blocks around it, and nowhere further out.

This is said of the simplest tree that can tell: a call that binds a name with a use of the name after
it, in a block with a use after it, and so on (`Nest.items`). The run is followed in the pass with names,
which shows what every abstraction is opened for; indices and failures are carried over from there.

## Key results

- `LowerNamed.block_use`, `LowerNamed.block_use_of_not_knows`: a use after an item
- `Nest.exec_items`, `Nest.exec_items_of_le`: the blocks of a nest, one after the other
- `Nest.lowerAll_of_lt`, `Nest.lowerAll_of_le`: a nest as a program
- `lowerAll_nest`: whole programs
-/

namespace Unsugar

/-! ## Nests -/

/-- A call that binds a name at a level, in blocks with uses of the name: the names and the positions
    of all that stands in it. -/
structure Nest where
  callee : String
  bound : String
  atom : String
  level : Nat
  callPos : Nat
  calleePos : Nat
  bindingPos : Nat
  atomPos : Nat
  blockPos : Nat → Nat
  usePos : Nat → Nat

namespace Nest

variable (N : Nest)

/-- The call that binds the name. -/
def call : Node :=
  .call N.callPos (.var N.calleePos N.callee)
    [.bindLevel N.bindingPos N.level N.bound, .atom N.atomPos N.atom]

/-- The use of the name that follows the block numbered `j` from the inside; the use numbered 0 follows
    the call. -/
def use (j : Nat) : Node := .var (N.usePos j) N.bound

/-- The call and a use, in so many blocks with a use behind each. -/
def items : Nat → List Node
  | 0 => [N.call, N.use 0]
  | j + 1 => [.block (N.blockPos (j + 1)) (items j), N.use (j + 1)]

end Nest

/-- A term applied to a continuation that is a use of its one name. -/
def NamedTerm.thenUse (x : String) (t : NamedTerm) : NamedTerm :=
  .abs none (.app t (.abs (some x) (.name x)))

/-- The same without names. -/
def Term.thenUse (t : Term) : Term := .abs (.app t (.abs (.var 0)))

/-- `toTerm?` of `thenUse`: the use is the index 0, and the term stands under one abstraction. -/
theorem NamedTerm.toTerm?_thenUse (x : String) {t : NamedTerm} {t' : Term}
    {env : List (Option String)} (h : t.toTerm? (none :: env) = some t') :
    (t.thenUse x).toTerm? env = some t'.thenUse := by
  simp [thenUse, Term.thenUse, toTerm?, List.findIdx?_cons, h]

namespace Nest

/-- What a nest becomes if all its uses mean the binding, given what the call becomes. -/
def namedTerm (N : Nest) (call : NamedTerm) : Nat → NamedTerm
  | 0 => call.thenUse N.bound
  | j + 1 => (N.namedTerm call j).thenUse N.bound

/-- The same without names. -/
def term (call : Term) : Nat → Term
  | 0 => call.thenUse
  | j + 1 => (term call j).thenUse

/-- `toTerm?` of `namedTerm`: the call stands under one abstraction more than there are blocks around
    it. By induction on the blocks. -/
theorem toTerm?_namedTerm (N : Nest) {call : NamedTerm} {t : Term} (j : Nat)
    {env : List (Option String)}
    (h : call.toTerm? (List.replicate (j + 1) none ++ env) = some t) :
    (N.namedTerm call j).toTerm? env = some (term t j) := by
  induction j generalizing env with
  | zero => exact NamedTerm.toTerm?_thenUse N.bound h
  | succ j ih =>
    apply NamedTerm.toTerm?_thenUse
    apply ih
    rwa [List.replicate_succ', List.append_assoc] at h

end Nest

/-! ## A use after an item -/

namespace LowerNamed

open Lower

theorem exec_name_of_isSome {span : Span} {x : String} {c : Context}
    (h : (c.scope.resolve? x).isSome) : (name span x).exec c = (.ok (.name x), c) := by
  rw [name, exec_get_bind, if_pos h]
  rfl

/-- `name` of a name that the context does not know. -/
theorem exec_name_of_not_knows {span : Span} {x : String} {c : Context} (h : ¬ c.Knows x) :
    (name span x).exec c = (.error ⟨span, x⟩, c) := by
  simp only [Context.Knows, not_or, Option.isSome_iff_ne_none, ne_eq, not_not] at h
  obtain ⟨hscope, hbuiltin, heffect⟩ := h
  rw [name, exec_get_bind]
  simp [hscope, hbuiltin, heffect]

/-- `closeBlock` in one equation. -/
theorem exec_closeBlock (depth : Nat) (steps : List NamedStep) (deferred : List Pending)
    (c : Context) :
    (closeBlock depth steps deferred).exec c =
      (.ok (NamedStep.chain steps),
        { c with
          scope := c.scope.truncate depth
          pending := deferred
          events := .blockDone (steps.map (·.opened.length)) :: c.events }) := rfl

/-- `block` of an item that leaves one binding in the queue, and of a use of its name: the item is
    applied to an abstraction for the name. The block leaves the copy of the binding, if there is one.
    -/
theorem block_use {n : Node} {b : Pending} {t : NamedTerm} {c c₁ : Context} (pos : Nat)
    (hc : c.pending = []) (hn : (node .plain .ordinary n).exec c.openScope.2 = (.ok t, c₁))
    (hscope : c₁.scope = c.openScope.2.scope) (hb : c₁.pending = [b]) :
    ∃ events, (block [n, .var pos b.name]).exec c =
      (.ok (t.thenUse b.name),
        { c₁ with scope := c.scope, pending := b.shadow?.toList, events := events }) := by
  have hresolve : (c₁.openScope.2.scope.resolve? b.name).isSome :=
    Scope.isSome_resolve?_openScope (by simp [hb])
  -- Both items only added to the scope, so closing the block gives back the one at its start.
  have hclosed : c₁.openScope.2.scope.truncate c.scope.depth = c.scope := by
    refine truncate_of_suffix (List.IsSuffix.trans ?_ c₁.grows_openScope.scope)
    rw [hscope]
    exact c.grows_openScope.scope
  -- What is deferred is the copy of the one binding that was opened.
  have hshadow : [b].filterMap Pending.shadow? = b.shadow?.toList := by
    cases h : b.shadow? <;> simp [h]
  rw [block, exec_get_bind, exec_modifyGet_bind, exec_bind, hn]
  simp only [items, node, pure_bind, bind_assoc, exec_modifyGet_bind]
  rw [exec_bind, exec_name_of_isSome hresolve]
  simp only [exec_closeBlock, hclosed, Context.openScope_fst, hc, hb, Context.literals_openScope,
    Context.effectSuffix_openScope, hshadow, List.append_nil]
  exact ⟨_, rfl⟩

/-- `block` of an item, and of a use of a name that means nothing after it. -/
theorem block_use_of_not_knows {n : Node} {pos : Nat} {x : String} {t : NamedTerm} {c c₁ : Context}
    (hn : (node .plain .ordinary n).exec c.openScope.2 = (.ok t, c₁))
    (hx : ¬ c₁.openScope.2.Knows x) :
    ((block [n, .var pos x]).exec c).1 = .error ⟨(Node.var pos x).span, x⟩ := by
  rw [block, exec_get_bind, exec_modifyGet_bind, exec_bind, hn]
  simp only [items, node, pure_bind, bind_assoc, exec_modifyGet_bind]
  rw [exec_bind, exec_name_of_not_knows hx]

theorem exec_block_node (d : Delivery) (k : NameKind) (pos : Nat) (ns : List Node) (c : Context) :
    (node d k (.block pos ns)).exec c = (block ns).exec c := by
  rw [node]

/-- `block` fails where its first item does. -/
theorem block_cons_error {n : Node} {rest : List Node} {e : Unresolved} {c : Context}
    (hn : ((node .plain .ordinary n).exec c.openScope.2).1 = .error e) :
    ((block (n :: rest)).exec c).1 = .error e := by
  rw [block, exec_get_bind, exec_modifyGet_bind, exec_bind]
  rcases hrun : (node .plain .ordinary n).exec c.openScope.2 with ⟨result, c₁⟩
  rw [hrun] at hn
  subst hn
  rfl

end LowerNamed

/-! ## The blocks of a nest -/

namespace Nest

open Lower

variable {N : Nest} {c : Context}

/-- A context for a nest: nothing is queued, the callee is an ordinary name, and the name that is to be
    bound means nothing yet. -/
structure Fits (N : Nest) (c : Context) : Prop where
  pending : c.pending = []
  resolves : (c.scope.resolve? N.callee).isSome
  ordinary : c.scope.isMacro (.var N.calleePos N.callee) = false
  unknown : ¬ c.Knows N.bound

/-- The binding when it is opened for the use numbered `j`. -/
def binding (N : Nest) (j : Nat) : Pending := ⟨N.level - j, .scope, N.bound, .ordinary⟩

/-- `shadow?` of the binding at the use numbered `j` is the binding at the next use out, within the
    level. -/
theorem shadow?_binding (N : Nest) (j : Nat) :
    (N.binding j).shadow? = if j + 1 < N.level then some (N.binding (j + 1)) else none := by
  have hlevel : 1 < N.level - j ↔ j + 1 < N.level := by omega
  simp only [binding, Pending.shadow?, hlevel, Nat.sub_sub]

/-- What the call becomes from a literal table. -/
def namedCall (N : Nest) (t : LiteralTable) : NamedTerm :=
  .app (.app (.name N.callee) (.lit (t.intern (.atom N.bound)).1))
    (.lit ((t.intern (.atom N.bound)).2.intern (.atom N.atom)).1)

/-- The literal table after the call. -/
def literals (N : Nest) (t : LiteralTable) : LiteralTable :=
  ((t.intern (.atom N.bound)).2.intern (.atom N.atom)).2

/-- `Fits` inside a block: a scope that nothing is opened for has the names that were there. -/
theorem Fits.openScope (h : N.Fits c) : N.Fits c.openScope.2 := by
  -- The one entry that is added has no name, so it moves indices and hides nothing.
  have hresolve (x : String) :
      c.openScope.2.scope.resolve? x = (c.scope.resolve? x).map (· + 1) := by
    rw [Context.scope_openScope, h.pending]
    exact c.scope.resolve?_push_of_ne (by simp [ScopeEntry.placeholder])
  have hclassify (x : String) : c.openScope.2.scope.classify? x = c.scope.classify? x := by
    rw [Context.scope_openScope, h.pending]
    simp [Scope.classify?, Pending.openedEntries, ScopeEntry.placeholder]
  refine ⟨c.pending_openScope, ?_, ?_, ?_⟩
  · rw [hresolve, Option.isSome_map]
    exact h.resolves
  · simp only [Scope.isMacro, hclassify]
    exact h.ordinary
  · intro hknows
    apply h.unknown
    rwa [Context.Knows, hresolve, Option.isSome_map, c.grows_openScope.isEffect_eq] at hknows

/-- `Fits` does not depend on the literals and the events. -/
theorem Fits.of_scope_eq {c' : Context} (h : N.Fits c) (hpending : c'.pending = [])
    (hscope : c'.scope = c.scope) (hsuffix : c'.effectSuffix = c.effectSuffix) : N.Fits c' where
  pending := hpending
  resolves := by rw [hscope]; exact h.resolves
  ordinary := by rw [hscope]; exact h.ordinary
  unknown := fun hknows => h.unknown (hknows.congr hscope hsuffix)

/-- `node` of the call of a nest queues the binding. -/
theorem exec_call (h : N.Fits c) :
    ∃ events, (LowerNamed.node .plain .ordinary N.call).exec c =
      (.ok (N.namedCall c.literals),
        { c with
          literals := N.literals c.literals
          pending := [N.binding 0]
          events := events }) := by
  have hplain : (Delivery.plain = .tagged) = False := by simp
  -- Nothing is queued, so nothing is put aside.
  have htake : c.takePending = ([], c) := by
    obtain ⟨scope, pending, literals, effectSuffix, events⟩ := c
    obtain rfl : pending = [] := h.pending
    rfl
  rw [call, LowerNamed.node, exec_get_bind]
  simp only [hplain, decide_false, Bool.false_and, Bool.false_eq_true, if_false, h.ordinary,
    exec_modifyGet_bind, htake]
  rw [LowerNamed.node, exec_bind, exec_bind, LowerNamed.exec_name_of_isSome h.resolves]
  simp only [exec_pure, exec_noteIf_bind, LowerNamed.arguments, LowerNamed.node, Node.bindLevel,
    h.pending]
  exact ⟨_, rfl⟩

/-- `block` of a nest, as far as the level of its binding reaches: every use is right under the
    abstraction that was opened for it. By induction on the blocks. -/
theorem exec_items (h : N.Fits c) {j : Nat} (hj : j < N.level) :
    ∃ events, (LowerNamed.block (N.items j)).exec c =
      (.ok (N.namedTerm (N.namedCall c.literals) j),
        { c with
          literals := N.literals c.literals
          pending := (N.binding j).shadow?.toList
          events := events }) := by
  induction j generalizing c with
  | zero =>
    obtain ⟨events, hcall⟩ := exec_call h.openScope
    rw [Context.literals_openScope, Context.effectSuffix_openScope] at hcall
    obtain ⟨events', hblock⟩ := LowerNamed.block_use (N.usePos 0) h.pending hcall rfl rfl
    exact ⟨events', hblock⟩
  | succ j ih =>
    -- The block inside leaves one copy, since the level reaches further still.
    obtain ⟨events, hinner⟩ := ih h.openScope (by omega)
    rw [← LowerNamed.exec_block_node .plain .ordinary (N.blockPos (j + 1)), Context.literals_openScope,
      Context.effectSuffix_openScope, shadow?_binding, if_pos hj] at hinner
    obtain ⟨events', hblock⟩ := LowerNamed.block_use (N.usePos (j + 1)) h.pending hinner rfl rfl
    exact ⟨events', hblock⟩

/-- `block` of a nest beyond the level of its binding fails at the first use out there. By induction on
    the blocks. -/
theorem exec_items_of_le (h : N.Fits c) (hlevel : 1 ≤ N.level) {j : Nat} (hj : N.level ≤ j) :
    ((LowerNamed.block (N.items j)).exec c).1 =
      .error ⟨(N.use N.level).span, N.bound⟩ := by
  induction j generalizing c with
  | zero => omega
  | succ j ih =>
    rcases Nat.lt_or_ge j N.level with hlast | hinside
    · -- The block inside is the last that the level reaches, so it leaves nothing.
      obtain ⟨events, hinner⟩ := exec_items h.openScope hlast
      have hnone : (N.binding j).shadow? = none := by
        rw [shadow?_binding, if_neg (by omega)]
      rw [← LowerNamed.exec_block_node .plain .ordinary (N.blockPos (j + 1)), hnone] at hinner
      have hlevel' : N.level = j + 1 := by omega
      rw [hlevel']
      refine LowerNamed.block_use_of_not_knows hinner (Fits.openScope ?_).unknown
      exact h.openScope.of_scope_eq rfl rfl rfl
    · -- The failure is further inside.
      apply LowerNamed.block_cons_error
      rw [LowerNamed.node]
      exact ih h.openScope hinside

end Nest

/-! ## Programs -/

section Programs

variable {N : Nest} {settings : Settings} {outer inner : List (NameKind × String)}

/-- The scope at the start of a program, around an entry of its prelude. -/
theorem Node.scope_start_of_prelude {kind : NameKind} {x : String}
    (hprelude : settings.prelude = outer ++ (kind, x) :: inner) (file : Nat) (items : List Node) :
    (Node.start settings file items).scope =
      ⟨(inner.map fun p => ScopeEntry.named p.1 p.2).reverse ++ .named kind x ::
        (outer.map fun p => ScopeEntry.named p.1 p.2).reverse⟩ := by
  show (Context.initial settings).scope = _
  rw [Context.scope_initial, hprelude]
  simp

/-- `Fits` at the start of a program, whose prelude has the callee and does not offer the bound name.
    -/
theorem Nest.fits_start (hprelude : settings.prelude = outer ++ (.ordinary, N.callee) :: inner)
    (hinner : ∀ entry ∈ inner, entry.2 ≠ N.callee) (hbound : ¬ settings.Offers N.bound) (file : Nat)
    (items : List Node) :
    N.Fits (Node.start settings file items) ∧
      (Node.start settings file items).scope.resolve? N.callee = some inner.length := by
  have hscope := Node.scope_start_of_prelude hprelude file items
  -- No entry of the prelude inside of the callee has its name, so the callee is found behind them.
  have hentries : ∀ e ∈ (inner.map fun p => ScopeEntry.named p.1 p.2).reverse,
      e.name? ≠ some N.callee := by
    intro e he
    obtain ⟨entry, hentry, rfl⟩ := List.mem_map.1 (List.mem_reverse.1 he)
    simpa [ScopeEntry.named] using hinner entry hentry
  have hresolve := Scope.resolve?_append_named hentries .ordinary
    (outer.map fun p => ScopeEntry.named p.1 p.2).reverse
  have hclassify := Scope.classify?_append_named hentries .ordinary
    (outer.map fun p => ScopeEntry.named p.1 p.2).reverse
  rw [← hscope] at hresolve hclassify
  rw [List.length_reverse, List.length_map] at hresolve
  refine ⟨⟨rfl, by simp [hresolve], by simp [Scope.isMacro, hclassify], ?_⟩, hresolve⟩
  exact fun hknows => hbound (Settings.offers_iff.2 (hknows.congr rfl rfl))

/-- `toTerm?` of a nest: the callee is the index of its entry, counted from under the abstractions
    around the call. -/
theorem Nest.toTerm?_call (N : Nest) {env : List (Option String)} {i : Nat}
    (h : env.findIdx? (· = some N.callee) = some i) (n x y : Nat) :
    (N.namedTerm (.app (.app (.name N.callee) (.lit x)) (.lit y)) n).toTerm? env =
      some (Nest.term (.app (.app (.var (i + (n + 1))) (.lit x)) (.lit y)) n) := by
  -- The abstractions around the call bind no name.
  have hskip : (List.replicate (n + 1) (none : Option String)).findIdx? (· = some N.callee) = none := by
    simp [List.findIdx?_replicate]
  have hcallee : (NamedTerm.name N.callee).toTerm? (List.replicate (n + 1) none ++ env) =
      some (.var (i + (n + 1))) := by
    rw [NamedTerm.toTerm?, List.findIdx?_append, hskip, h]
    simp
  exact N.toTerm?_namedTerm n (NamedTerm.toTerm?_app (NamedTerm.toTerm?_app hcallee rfl) rfl)

/-- `lowerAll` of a nest within the level of its binding: every use is the index 0, and in the pass
    with names the name that was bound. -/
theorem Nest.lowerAll_of_lt {file n i : Nat} (hfits : N.Fits (Node.start settings file (N.items n)))
    (hcallee : (Node.start settings file (N.items n)).scope.resolve? N.callee = some i)
    (hn : n < N.level) :
    ∃ p x y,
      (Node.lowerAll settings file (N.items n)).1 = .ok p ∧
        p.term.check settings.prelude.length = .ok () ∧
        p.literals[x]? = some (.atom N.bound) ∧ p.literals[y]? = some (.atom N.atom) ∧
        p.term = Nest.term (.app (.app (.var (i + (n + 1))) (.lit x)) (.lit y)) n ∧
        Node.lowerAllNamed settings file (N.items n) =
          .ok (N.namedTerm (.app (.app (.name N.callee) (.lit x)) (.lit y)) n, p.literals) := by
  let start := Node.start settings file (N.items n)
  -- The pass with names is followed step by step; `block_resolves` carries it over to indices.
  have hpasses := LowerNamed.block_resolves (N.items n) start
  obtain ⟨events, hnamed⟩ := Nest.exec_items hfits hn
  rw [hnamed] at hpasses
  obtain ⟨t, c, hrun, rfl, ht⟩ := hpasses.of_right_ok
  rw [Scope.resolve?_eq_findIdx?] at hcallee
  rw [Nest.namedCall, N.toTerm?_call hcallee] at ht
  have hscoped : t.Scoped settings.prelude.length := by
    rw [← Context.depth_initial settings]
    exact (Lower.block_scoped (N.items n) start).of_ok hrun
  have hchecked := (Term.check_eq_ok_iff _ _).2 ⟨(Lower.block_isAbs _ _).of_ok hrun, hscoped⟩
  -- The two atoms keep the places that the call interned them at.
  have hx := start.literals.get?_intern (.atom N.bound)
  have hy := (start.literals.intern (.atom N.bound)).2.get?_intern (.atom N.atom)
  have hkept := (start.literals.intern (.atom N.bound)).2.prefix_toList_intern (.atom N.atom)
  refine ⟨⟨t, (N.literals start.literals).toList⟩, _, _, ?_, hchecked,
    LiteralTable.get?_of_prefix hkept hx, hy, (Option.some.inj ht).symm, ?_⟩
  · exact Node.lowerAll_eq_ok_iff.2 ⟨_, hrun, rfl⟩
  · rw [Node.lowerAllNamed, hnamed]
    rfl

/-- `lowerAll` of a nest beyond the level of its binding fails at the first use out there. -/
theorem Nest.lowerAll_of_le {file n : Nat} (hfits : N.Fits (Node.start settings file (N.items n)))
    (hlevel : 1 ≤ N.level) (hn : N.level ≤ n) :
    (Node.lowerAll settings file (N.items n)).1 = .error ⟨(N.use N.level).span, N.bound⟩ := by
  have hpasses := LowerNamed.block_resolves (N.items n) (Node.start settings file (N.items n))
  have herror := hpasses.of_right_error (Nest.exec_items_of_le hfits hlevel hn)
  rw [Node.lowerAll_eq_error_iff, Node.fault, Lower.fault, herror]

end Programs

/-- `lowerAll` of a nest: a binding reaches as far as its level. Let an ordinary name of the prelude be
    called with a binding of level `k` of a name that means nothing, and let uses of the name follow
    the call and each of the `n` blocks around it (`Nest.items`). The program is lowered if and only if
    `n` is below `k`. Then each of the `n + 1` uses is the index 0, right under an abstraction that was
    opened for the name (`Nest.term`, `Nest.namedTerm`). Otherwise the program fails at the use that
    follows the block numbered `k` from the inside. -/
theorem lowerAll_nest (N : Nest) (settings : Settings) (file n : Nat)
    (outer inner : List (NameKind × String))
    (hprelude : settings.prelude = outer ++ (.ordinary, N.callee) :: inner)
    (hinner : ∀ entry ∈ inner, entry.2 ≠ N.callee) (hbound : ¬ settings.Offers N.bound)
    (hlevel : 1 ≤ N.level) :
    ((∃ p, (Node.lowerAll settings file (N.items n)).1 = .ok p) ↔ n < N.level) ∧
    (n < N.level → ∃ p x y,
      (Node.lowerAll settings file (N.items n)).1 = .ok p ∧
        p.term.check settings.prelude.length = .ok () ∧
        p.literals[x]? = some (.atom N.bound) ∧ p.literals[y]? = some (.atom N.atom) ∧
        p.term = Nest.term (.app (.app (.var (inner.length + (n + 1))) (.lit x)) (.lit y)) n ∧
        Node.lowerAllNamed settings file (N.items n) =
          .ok (N.namedTerm (.app (.app (.name N.callee) (.lit x)) (.lit y)) n, p.literals)) ∧
    (N.level ≤ n → (Node.lowerAll settings file (N.items n)).1 =
      .error ⟨(N.use N.level).span, N.bound⟩) := by
  obtain ⟨hfits, hcallee⟩ := Nest.fits_start hprelude hinner hbound file (N.items n)
  have hwithin := Nest.lowerAll_of_lt hfits hcallee
  have hbeyond := Nest.lowerAll_of_le hfits hlevel
  refine ⟨⟨?_, ?_⟩, hwithin, hbeyond⟩
  · -- Beyond the level the name is unknown.
    intro h
    obtain ⟨p, hp⟩ := h
    by_contra hn
    rw [hbeyond (by omega)] at hp
    cases hp
  · -- Within the level there is a program.
    intro hn
    obtain ⟨p, -, -, hp, -⟩ := hwithin hn
    exact ⟨p, hp⟩

/-- Three levels in two blocks and in three: the last use is out of reach, and is reported. -/
theorem lowerAll_nest_three :
    let settings : Settings := ⟨[(.macroName, "f"), (.ordinary, "f"), (.ordinary, "h")], "!"⟩
    let N : Nest := ⟨"f", "g", "a", 3, 0, 0, 2, 7, fun _ => 0, fun j => 10 + 4 * j⟩
    let program : Program :=
      ⟨.abs (.app (.abs (.app (.abs (.app (.app (.app (.var 4) (.lit 4)) (.lit 5)) (.abs (.var 0))))
          (.abs (.var 0)))) (.abs (.var 0))),
        [.atom "Nil", .atom "Value", .atom "Binding", .atom "Call", .atom "g", .atom "a"]⟩
    (Node.lowerAll settings 0 (N.items 2)).1 = .ok program ∧
      (∃ x y, program.literals[x]? = some (.atom "g") ∧ program.literals[y]? = some (.atom "a") ∧
        program.term = Nest.term (.app (.app (.var (1 + (2 + 1))) (.lit x)) (.lit y)) 2) ∧
      (Node.lowerAll settings 0 (N.items 3)).1 = .error ⟨⟨22, 23⟩, "g"⟩ := by
  intro settings N program
  have hinner : ∀ entry ∈ [(NameKind.ordinary, "h")], entry.2 ≠ N.callee := by decide
  have hbound : ¬ settings.Offers N.bound := by decide
  have hreach (n : Nat) := lowerAll_nest N settings 0 n
    [(.macroName, "f")] [(.ordinary, "h")] rfl hinner hbound (by decide)
  have hlower : (Node.lowerAll settings 0 (N.items 2)).1 = .ok program := by cbv
  obtain ⟨p, x, y, hp, -, hx, hy, hterm, -⟩ := (hreach 2).2.1 (by decide)
  obtain rfl : program = p := Except.ok.inj (hlower.symm.trans hp)
  exact ⟨hlower, ⟨x, y, hx, hy, hterm⟩, (hreach 3).2.2 (by decide)⟩

end Unsugar
