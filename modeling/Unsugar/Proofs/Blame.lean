import Mathlib
import Unsugar.Proofs.Literals
import Unsugar.Proofs.Path

/-!
# Which name a failure blames

A run fails at the first name, in the order of the tree, that means nothing where it is used. Which use
that is cannot be read off the failure, since the span in it is only what the tree says of the place.
So a failure is said to be at a place if it goes along with what the tree says there: however the use
is positioned, its span is the one that is reported.

The proof follows the tree. A sequence fails where its first part fails, or else where its second part
does in the context that the first part ended in (`Lower.fault_bind`); so the failure of a list of nodes
is blamed on a place in the first node or on a later one (`Lower.Blamable.cons`). Replacing the blamed
name must not turn the calls around it into other calls. It does not, because a name that means
nothing is no macro: the outlines that calls are lowered by stay the same.

## Key results

- `Lower.block_blamable`: the failure of a block is blamed on a first place
- `lowerAll_error_leftmost`: the failures of programs
-/

namespace Unsugar

/-- `Knows` is kept along `Grows`. -/
theorem Context.Grows.knows {c c' : Context} (h : c.Grows c') {x : String} (hx : c.Knows x) :
    c'.Knows x := by
  rcases hx with hscope | hbuiltin | heffect
  · -- a name in scope: the scope was only added to
    left
    rw [Option.isSome_iff_ne_none] at hscope ⊢
    exact fun hnone => hscope (Scope.resolve?_eq_none_of_suffix h.scope hnone)
  · -- a built-in name
    exact .inr (.inl hbuiltin)
  · -- an effect: the suffix is the same
    exact .inr (.inr (by rwa [h.isEffect_eq]))

/-- `resolve?` finds no name that the context does not know. -/
theorem Context.resolve?_of_not_knows {c : Context} {x : String} (h : ¬ c.Knows x) :
    c.scope.resolve? x = none := by
  by_contra hsome
  exact h (.inl (Option.isSome_iff_ne_none.2 hsome))

namespace Lower

variable {α β : Type}

/-! ## Failures of sequences -/

/-- The failure that a run ends in, if it does. -/
def fault (x : Lower α) (c : Context) : Option Unresolved :=
  match (x.exec c).1 with
  | .ok _ => none
  | .error e => some e

/-- The failure of a second part, when the first part succeeds. -/
def faultAfter (x : Lower α) (f : α → Lower β) (c : Context) : Option Unresolved :=
  match x.exec c with
  | (.ok a, c') => fault (f a) c'
  | (.error _, _) => none

/-- `fault` of `x >>= f`: that of `x`, or else that of `f` from where `x` ended. -/
theorem fault_bind (x : Lower α) (f : α → Lower β) (c : Context) :
    fault (x >>= f) c = (fault x c).or (faultAfter x f c) := by
  rw [fault, fault, faultAfter, exec_bind]
  rcases x.exec c with ⟨_ | _, _⟩ <;> rfl

/-- `fault` of `x >>= f` where `f` cannot fail: that of `x`. -/
theorem fault_bind_of_eq_none (x : Lower α) {f : α → Lower β} (h : ∀ a c, fault (f a) c = none)
    (c : Context) : fault (x >>= f) c = fault x c := by
  have hafter : faultAfter x f c = none := by
    rw [faultAfter]
    rcases x.exec c with ⟨_ | _, _⟩
    · rfl
    · exact h _ _
  rw [fault_bind, hafter, Option.or_none]

/-- `fault` of a name: there is none if the context knows it, and otherwise it is at the span of the
    name. -/
theorem fault_var (d : Delivery) (k : NameKind) (pos : Nat) (x : String) (c : Context) :
    (c.Knows x ∧ fault (node d k (.var pos x)) c = none) ∨
      (¬ c.Knows x ∧
        fault (node d k (.var pos x)) c = some ⟨(Node.var pos x).span, x⟩) := by
  have hname := name_knows (Node.var pos x).span x c
  -- Delivering the name adds no failure of its own.
  have hnode : fault (node d k (.var pos x)) c = fault (name (Node.var pos x).span x) c := by
    rw [node]
    exact fault_bind_of_eq_none _ (fun _ _ => rfl) c
  rw [hnode, fault]
  cases hrun : ((name (Node.var pos x).span x).exec c).1 with
  | ok t => exact .inl ⟨hname.of_fst_eq_ok hrun, rfl⟩
  | error e =>
    obtain ⟨rfl, hunknown⟩ := hname.of_fst_eq_error hrun
    exact .inr ⟨hunknown, rfl⟩

/-! ## Places of failures -/

/-- Of a forest, the failure is at a place: a name stands there that the context does not know, and
    however the name is positioned, it is reported at its span. -/
def FailsAt (c : Context) (F : List Node → Option Unresolved) (ns : List Node) (path : List Nat) :
    Prop :=
  ∃ pos x, Node.atAll? ns path = some (.var pos x) ∧ ¬ c.Knows x ∧
    ∀ pos', F (Node.putAll ns path (.var pos' x)) = some ⟨(Node.var pos' x).span, x⟩

/-- A forest is clear up to a place if it does not fail, or only at a later place. -/
def ClearTo (c : Context) (F : List Node → Option Unresolved) (ns : List Node) (path : List Nat) :
    Prop :=
  F ns = none ∨ ∃ later, path < later ∧ FailsAt c F ns later

/-- If a forest fails, then at a place that it is clear up to once an atom stands there. -/
def Blamable (c : Context) (F : List Node → Option Unresolved) (ns : List Node) : Prop :=
  F ns = none ∨ ∃ path, FailsAt c F ns path ∧
    ∀ pos a, ClearTo c F (Node.putAll ns path (.atom pos a)) path

section

variable {c c₀ : Context} {F F' : List Node → Option Unresolved} {n : Node} {ns rest : List Node}
  {path : List Nat}

/-- `FailsAt` at the position that the tree has: the failure is that of the name at its place. -/
theorem FailsAt.eq_some (h : FailsAt c F ns path) :
    ∃ pos x, Node.atAll? ns path = some (.var pos x) ∧ ¬ c.Knows x ∧
      F ns = some ⟨(Node.var pos x).span, x⟩ := by
  obtain ⟨pos, x, hat, hunknown, hfails⟩ := h
  have hself := hfails pos
  rw [Node.putAll_self hat] at hself
  exact ⟨pos, x, hat, hunknown, hself⟩

/-! ### Smaller contexts -/

/-- `FailsAt` in a smaller context: what a context does not know, none that it has grown from knows. -/
theorem FailsAt.mono (h : FailsAt c F ns path) (hg : c₀.Grows c) : FailsAt c₀ F ns path := by
  obtain ⟨pos, x, hat, hunknown, hfails⟩ := h
  exact ⟨pos, x, hat, fun hknows => hunknown (hg.knows hknows), hfails⟩

theorem ClearTo.mono (h : ClearTo c F ns path) (hg : c₀.Grows c) : ClearTo c₀ F ns path := by
  rcases h with h | ⟨later, hlt, hlater⟩
  · exact .inl h
  · exact .inr ⟨later, hlt, hlater.mono hg⟩

theorem Blamable.mono (h : Blamable c F ns) (hg : c₀.Grows c) : Blamable c₀ F ns := by
  rcases h with h | ⟨path, hfails, hatom⟩
  · exact .inl h
  · exact .inr ⟨path, hfails.mono hg, fun pos a => (hatom pos a).mono hg⟩

/-! ### Outlines -/

/-- `Scope.outline` does not see an atom in the place of an unknown name: neither of them is a macro.
    -/
theorem FailsAt.outlines (h : FailsAt c F ns path) (pos : Nat) (a : String) :
    (Node.putAll ns path (.atom pos a)).map c.scope.outline = ns.map c.scope.outline := by
  obtain ⟨pos', x, hat, hunknown, -⟩ := h
  have hx := Context.resolve?_of_not_knows hunknown
  exact Node.outlines_putAll hat (by rw [Scope.outline_atom, Scope.outline_var hx])

/-- `FailsAt` depends on `F` only at forests with the same outlines. -/
theorem FailsAt.congr (h : FailsAt c F ns path)
    (hF : ∀ ns', ns'.map c.scope.outline = ns.map c.scope.outline → F' ns' = F ns') :
    FailsAt c F' ns path := by
  obtain ⟨pos, x, hat, hunknown, hfails⟩ := h
  have hx := Context.resolve?_of_not_knows hunknown
  refine ⟨pos, x, hat, hunknown, fun pos' => ?_⟩
  rw [hF _ (Node.outlines_putAll hat (by rw [Scope.outline_var hx, Scope.outline_var hx])), hfails]

/-- `ClearTo` depends on `F` only at forests with the same outlines. -/
theorem ClearTo.congr (h : ClearTo c F ns path)
    (hF : ∀ ns', ns'.map c.scope.outline = ns.map c.scope.outline → F' ns' = F ns') :
    ClearTo c F' ns path := by
  rcases h with h | ⟨later, hlt, hlater⟩
  · exact .inl ((hF ns rfl).trans h)
  · exact .inr ⟨later, hlt, hlater.congr hF⟩

/-- `Blamable` depends on `F` only at forests with the same outlines. -/
theorem Blamable.congr (h : Blamable c F ns)
    (hF : ∀ ns', ns'.map c.scope.outline = ns.map c.scope.outline → F' ns' = F ns') :
    Blamable c F' ns := by
  rcases h with h | ⟨path, hfails, hatom⟩
  · exact .inl ((hF ns rfl).trans h)
  · -- With the atom in place the outlines are still the same, so `hF` applies there as well.
    refine .inr ⟨path, hfails.congr hF, fun pos a => ?_⟩
    exact (hatom pos a).congr fun ns' h => hF ns' (h.trans (hfails.outlines pos a))

/-! ### A node and the forest below it -/

/-- A failure of single nodes, as one of forests. -/
def single (f : Node → Option Unresolved) (ns : List Node) : Option Unresolved := ns.head?.bind f

variable {f : Node → Option Unresolved}

/-- `FailsAt` below a node: a place in the forest of its children is a place in the node. -/
theorem FailsAt.below (hlength : ns.length = n.children.length)
    (h : FailsAt c (fun ns => f (n.withChildren ns)) ns path) :
    FailsAt c (single f) [n.withChildren ns] (0 :: path) := by
  obtain ⟨pos, x, hat, hunknown, hfails⟩ := h
  obtain ⟨i, q, rfl⟩ := Node.exists_eq_cons hat
  have hchildren : (n.withChildren ns).children = ns := Node.children_withChildren hlength
  refine ⟨pos, x, ?_, hunknown, fun pos' => ?_⟩
  · -- what stands there
    show (n.withChildren ns).at? (i :: q) = _
    rw [Node.at?, hchildren]
    exact hat
  · -- what is reported when the name is put there with another position
    have hput : (n.withChildren ns).put (i :: q) (.var pos' x) =
        n.withChildren (Node.putAll ns (i :: q) (.var pos' x)) := by
      rw [Node.put, hchildren]
      exact Node.withChildren_withChildren ((Node.length_putAll ns (i :: q) _).trans hlength)
    show f ((n.withChildren ns).put (i :: q) (.var pos' x)) = _
    rw [hput]
    exact hfails pos'

/-- `ClearTo` below a node. -/
theorem ClearTo.below (hlength : ns.length = n.children.length)
    (h : ClearTo c (fun ns => f (n.withChildren ns)) ns path) :
    ClearTo c (single f) [n.withChildren ns] (0 :: path) := by
  rcases h with h | ⟨later, hlt, hlater⟩
  · exact .inl h
  · exact .inr ⟨0 :: later, List.cons_lt_cons_iff.2 (.inr ⟨rfl, hlt⟩), hlater.below hlength⟩

/-- `Blamable` below a node: the failure of a node is blamed on a place in its children. -/
theorem Blamable.below (h : Blamable c (fun ns => f (n.withChildren ns)) n.children) :
    Blamable c (single f) [n] := by
  rcases h with h | ⟨path, hfails, hatom⟩
  · have hnode : f (n.withChildren n.children) = none := h
    rw [Node.withChildren_children] at hnode
    exact .inl hnode
  · have hself := FailsAt.below rfl hfails
    rw [Node.withChildren_children] at hself
    refine .inr ⟨0 :: path, hself, fun pos a => ?_⟩
    obtain ⟨pos', x, hat, -⟩ := hfails
    obtain ⟨i, q, rfl⟩ := Node.exists_eq_cons hat
    exact (hatom pos a).below (Node.length_putAll n.children (i :: q) _)

/-! ### A node and those after it -/

variable {G : Node → List Node → Option Unresolved}

/-- `FailsAt` in the first node of a list: the whole fails there, since nothing comes before it. -/
theorem FailsAt.head (hF : ∀ n' rest', F (n' :: rest') = (f n').or (G n' rest'))
    (h : FailsAt c (single f) [n] path) : FailsAt c F (n :: rest) path := by
  obtain ⟨pos, x, hat, hunknown, hfails⟩ := h
  obtain ⟨q, rfl⟩ := Node.exists_eq_zero_cons hat
  refine ⟨pos, x, hat, hunknown, fun pos' => ?_⟩
  have hfirst : f (n.put q (.var pos' x)) = some ⟨(Node.var pos' x).span, x⟩ := hfails pos'
  show F (n.put q (.var pos' x) :: rest) = _
  rw [hF, hfirst]
  rfl

/-- `FailsAt` after a first node that does not fail. -/
theorem FailsAt.tail (hF : ∀ n' rest', F (n' :: rest') = (f n').or (G n' rest')) (hn : f n = none)
    (h : FailsAt c (G n) rest path) : FailsAt c F (n :: rest) (Node.pathAfter path) := by
  obtain ⟨pos, x, hat, hunknown, hfails⟩ := h
  refine ⟨pos, x, ?_, hunknown, fun pos' => ?_⟩
  · rw [Node.atAll?_pathAfter, hat]
  · rw [Node.putAll_pathAfter, hF, hn, Option.none_or, hfails]

/-- `ClearTo` after a first node that does not fail. -/
theorem ClearTo.tail (hF : ∀ n' rest', F (n' :: rest') = (f n').or (G n' rest')) (hn : f n = none)
    (h : ClearTo c (G n) rest path) : ClearTo c F (n :: rest) (Node.pathAfter path) := by
  rcases h with h | ⟨later, hlt, hlater⟩
  · left
    rw [hF, hn, h, Option.or_none]
  · exact .inr ⟨_, Node.pathAfter_lt_pathAfter hlt, hlater.tail hF hn⟩

/-- `ClearTo` for the places in a first node that does not fail: all failures are after it. -/
theorem Blamable.clearTo_head (hF : ∀ n' rest', F (n' :: rest') = (f n').or (G n' rest'))
    (hn : f n = none) (h : Blamable c (G n) rest) (q : List Nat) :
    ClearTo c F (n :: rest) (0 :: q) := by
  rcases h with h | ⟨later, hlater, -⟩
  · left
    rw [hF, hn, h, Option.or_none]
  · obtain ⟨pos, x, hat, -⟩ := hlater.eq_some
    obtain ⟨i, p, rfl⟩ := Node.exists_eq_cons hat
    exact .inr ⟨_, Node.zero_cons_lt_pathAfter q i p, hlater.tail hF hn⟩

/-- `Blamable` of a list of nodes: the failure is blamed on a place in the first node, or else after
    it. -/
theorem Blamable.cons (hF : ∀ n' rest', F (n' :: rest') = (f n').or (G n' rest'))
    (hn : Blamable c (single f) [n]) (hrest : ∀ n', Blamable c (G n') rest) :
    Blamable c F (n :: rest) := by
  rcases hn with hn | ⟨path, hfails, hatom⟩
  · -- the first node does not fail, so the failure is that of the rest
    have hn : f n = none := hn
    rcases hrest n with h | ⟨path, hfails, hatom⟩
    · left
      rw [hF, hn, h, Option.or_none]
    · refine .inr ⟨Node.pathAfter path, hfails.tail hF hn, fun pos a => ?_⟩
      rw [Node.putAll_pathAfter]
      exact (hatom pos a).tail hF hn
  · -- the first node fails, and the place stays the same
    refine .inr ⟨path, hfails.head hF, fun pos a => ?_⟩
    obtain ⟨pos', x, hat, -⟩ := hfails
    obtain ⟨q, rfl⟩ := Node.exists_eq_zero_cons hat
    show ClearTo c F (n.put q (.atom pos a) :: rest) (0 :: q)
    -- With the atom, the first node fails later or not at all, and then the others may still fail.
    rcases hatom pos a with hn' | ⟨later, hlt, hlater⟩
    · exact (hrest _).clearTo_head hF hn' q
    · exact .inr ⟨later, hlt, hlater.head hF⟩

end

/-! ## All of lowering -/

/-- `node` is blamable in every context. -/
abbrev NodeBlamable (d : Delivery) (k : NameKind) (n : Node) : Prop :=
  ∀ c, Blamable c (single fun n => fault (node d k n) c) [n]

/-- `arguments` are blamable in every context. -/
abbrev ArgumentsBlamable (d : Delivery) (ns : List Node) : Prop :=
  ∀ c, Blamable c (fun ns => fault (arguments d ns) c) ns

/-- `items` are blamable in every context. -/
abbrev ItemsBlamable (ns : List Node) : Prop :=
  ∀ c, Blamable c (fun ns => fault (items ns) c) ns

/-- `Blamable` of a node followed by `next` from where the node ended. The failure `F` is known only
    where the outlines are the same, since these decide how a call goes on. -/
theorem sequence_blamable {c : Context} {F : List Node → Option Unresolved} {d : Delivery}
    {k : NameKind} {n : Node} {rest : List Node} (next : Node → Term → List Node → Lower α)
    (hF : ∀ n' rest', (n' :: rest').map c.scope.outline = (n :: rest).map c.scope.outline →
      F (n' :: rest') = fault (node d k n' >>= fun t => next n' t rest') c)
    (hn : NodeBlamable d k n)
    (hrest : ∀ n' t c₁, Blamable c₁ (fun ns => fault (next n' t ns) c₁) rest) :
    Blamable c F (n :: rest) := by
  -- `sequence` is `F` for all forests, and `Blamable.cons` applies to it.
  let sequence (ns : List Node) : Option Unresolved :=
    ns.head?.bind fun n' => fault (node d k n' >>= fun t => next n' t ns.tail) c
  have hparts (n' : Node) (rest' : List Node) :
      sequence (n' :: rest') = (fault (node d k n') c).or
        (faultAfter (node d k n') (fun t => next n' t rest') c) :=
    fault_bind _ _ c
  -- What follows is blamed in a grown context, and so in this one.
  have hafter (n' : Node) :
      Blamable c (fun rest' => faultAfter (node d k n') (fun t => next n' t rest') c) rest := by
    have hgrows := (node_framed d k n' c).grows
    unfold faultAfter
    cases hrun : (node d k n').exec c with
    | mk result c₁ =>
      rw [hrun] at hgrows
      cases result with
      | ok t => exact (hrest n' t c₁).mono hgrows
      | error e => exact .inl rfl
  refine (Blamable.cons hparts (hn c) hafter).congr fun ns' houtlines => ?_
  cases ns' with
  | nil => simp at houtlines
  | cons n' rest' => exact hF n' rest' houtlines

/-- `node` of a call is blamable if its callee and its arguments are, as a sequence of the two. -/
theorem call_blamable (d : Delivery) (k : NameKind) (pos : Nat) (callee : Node) (args : List Node)
    (hcallee : ∀ d k, NodeBlamable d k callee) (hargs : ∀ d, ArgumentsBlamable d args) :
    NodeBlamable d k (.call pos callee args) := by
  intro c
  refine Blamable.below ?_
  show Blamable c (fun ns => fault (node d k ((Node.call pos callee args).withChildren ns)) c)
    (callee :: args)
  -- Calls with the same outlines are lowered in the same way, and the queue does not matter.
  rcases structure_or_ordinary d c.scope (.call pos callee args) with ⟨rfl, h⟩ | h
  · refine sequence_blamable (fun _ head ns => do
      let ts ← arguments .tagged ns
      return Term.app (head.tagged .call) (Term.list ts)) ?_
      (hcallee .tagged (Node.definitionKind args)) ?_
    · -- the same way of lowering for the same outlines
      intro callee' args' houtlines
      have hbindings : c.scope.hasBindings (.call pos callee' args') :=
        (Scope.hasBindings_call_congr houtlines).trans h
      have hkind := Scope.definitionKind_congr (List.cons.inj houtlines).2
      rw [Node.withChildren, fault, exec_call_structure hbindings, hkind, fault]
    · -- the arguments
      intro _ head c₁
      exact (hargs .tagged c₁).congr fun ns _ => fault_bind_of_eq_none _ (fun _ _ => rfl) c₁
  · have hgrows : c.Grows { c with pending := [] } := .of_eq rfl rfl rfl
    refine Blamable.mono ?_ hgrows
    refine sequence_blamable (fun callee' fn ns => do
      noteIf (c.scope.isMacro callee) (.macroCall callee'.pos args.length)
      let values ← arguments (if c.scope.isMacro callee then .tagged else .plain) ns
      modify (·.restorePending c.pending)
      return d.value (fn.appAll (if ns.isEmpty then [.reserved .nil] else values))) ?_
      (hcallee .plain (Node.definitionKind args)) ?_
    · -- the same way of lowering for the same outlines
      intro callee' args' houtlines
      have hbindings (hd : d = .tagged) : c.scope.hasBindings (.call pos callee' args') = false :=
        (Scope.hasBindings_call_congr houtlines).trans (h hd)
      obtain ⟨hhead, htail⟩ := List.cons.inj houtlines
      have hkind := Scope.definitionKind_congr htail
      have hcalled : c.scope.isMacro callee' = c.scope.isMacro callee :=
        congrArg Scope.Outline.isMacro hhead
      have hlength : args'.length = args.length := by
        simpa using congrArg List.length htail
      rw [Node.withChildren, fault, exec_call_ordinary hbindings, hkind, hcalled, hlength, fault]
    · -- the arguments, after a macro call was reported
      intro callee' fn c₁
      let called : Event := .macroCall callee'.pos args.length
      let c₂ : Context :=
        { c₁ with events := if c.scope.isMacro callee then called :: c₁.events else c₁.events }
      have hnoted : c₁.Grows c₂ := .of_eq rfl rfl rfl
      refine ((hargs (if c.scope.isMacro callee then .tagged else .plain) c₂).mono hnoted).congr ?_
      intro ns _
      rw [fault, exec_noteIf_bind]
      exact fault_bind_of_eq_none _ (fun _ _ => rfl) c₂

/-- `items` of one more item are blamable, as a sequence of the item and the rest. -/
theorem items_cons_blamable (n : Node) (rest : List Node) (hn : NodeBlamable .plain .ordinary n)
    (hrest : ItemsBlamable rest) : ItemsBlamable (n :: rest) := by
  intro c
  refine Blamable.mono ?_ c.grows_openScope
  refine sequence_blamable (fun _ t ns => do
    let r ← items ns
    return ((⟨c.openScope.1.length, t⟩ :: r.1 : List BlockStep),
      c.openScope.1.filterMap Pending.shadow? ++ r.2)) ?_ hn ?_
  · intro n' rest' _
    rw [fault, items, exec_modifyGet_bind, fault]
  · intro _ t c₁
    exact (hrest c₁).congr fun ns _ => fault_bind_of_eq_none _ (fun _ _ => rfl) c₁

/-- `block` is blamable if its items are: `closeBlock` cannot fail, and the atom `Nil` does not. -/
theorem block_blamable_of_items (ns : List Node) (h : ItemsBlamable (itemsOrNil ns)) (c : Context) :
    Blamable c (fun ns => fault (block ns) c) ns := by
  have hfault (ns : List Node) : fault (block ns) c = fault (items (itemsOrNil ns)) c := by
    rw [block_eq, fault, exec_get_bind]
    exact fault_bind_of_eq_none _ (fun _ _ => rfl) c
  cases ns with
  | nil => exact .inl rfl
  | cons n rest =>
    refine (h c).congr fun ns' houtlines => ?_
    cases ns' with
    | nil => simp [itemsOrNil] at houtlines
    | cons n' rest' => exact hfault _

/-- All of lowering is blamable: `node`, `arguments` and `items`, by `Lower.induct`. -/
private theorem blamable_all :
    (∀ d k n, NodeBlamable d k n) ∧ (∀ d ns, ArgumentsBlamable d ns) ∧ ∀ ns, ItemsBlamable ns := by
  refine induct NodeBlamable ArgumentsBlamable ItemsBlamable ?_ ?_ ?_ ?_ ?_ call_blamable ?_ ?_ ?_
    items_cons_blamable
  · -- var
    intro d k pos x c
    rcases fault_var d k pos x c with ⟨-, hnone⟩ | ⟨hunknown, -⟩
    · exact .inl hnone
    · refine .inr ⟨[0], ⟨pos, x, rfl, hunknown, fun pos' => ?_⟩, fun _ _ => .inl rfl⟩
      rcases fault_var d k pos' x c with ⟨hknows, -⟩ | ⟨-, hfails⟩
      · exact absurd hknows hunknown
      · exact hfails
  · -- atom
    intro d k pos x c
    exact .inl rfl
  · -- text
    intro d k pos content c
    exact .inl rfl
  · -- binding
    intro d k pos level consume x c
    exact .inl rfl
  · -- block
    intro d k pos ns ih c
    refine Blamable.below ?_
    exact (block_blamable_of_items ns ih c).congr fun ns' _ => by rw [Node.withChildren, node]
  · -- no arguments
    intro d c
    exact .inl rfl
  · -- an argument and the rest
    intro d arg rest harg hrest c
    refine sequence_blamable (fun _ t ns => do return t :: (← arguments d ns)) ?_ harg ?_
    · intro arg' rest' _
      rw [arguments]
    · intro _ t c₁
      exact (hrest c₁).congr fun ns _ => fault_bind_of_eq_none _ (fun _ _ => rfl) c₁
  · -- no items
    intro c
    exact .inl rfl

/-- The failure of `block` is blamed on the first name in it that is unknown where it is used. -/
theorem block_blamable (ns : List Node) (c : Context) :
    Blamable c (fun ns => fault (block ns) c) ns :=
  block_blamable_of_items ns (blamable_all.2.2 _) c

end Lower

/-! ## Programs -/

namespace Node

variable {settings : Settings} {file : Nat} {items : List Node}

/-- The failure that a program ends in, if it does. -/
def fault (settings : Settings) (file : Nat) (items : List Node) : Option Unresolved :=
  Lower.fault (Lower.block items) (start settings file items)

/-- `lowerAll` fails with `e` if and only if `fault` is `e`. -/
theorem lowerAll_eq_error_iff {e : Unresolved} :
    (lowerAll settings file items).1 = .error e ↔ fault settings file items = some e := by
  rw [lowerAll_fst, fault, Lower.fault]
  cases hrun : ((Lower.block items).exec (start settings file items)).1 <;>
    simp [hrun, Except.map]

/-- `lowerAll` gives a program if and only if there is no `fault`. -/
theorem exists_lowerAll_eq_ok_iff :
    (∃ p, (lowerAll settings file items).1 = .ok p) ↔ fault settings file items = none := by
  rw [lowerAll_fst, fault, Lower.fault]
  cases hrun : ((Lower.block items).exec (start settings file items)).1 <;>
    simp [hrun, Except.map]

/-- A program fails at a place: however the name that stands there is positioned, it is the one that
    is reported, at its span. -/
def FailsAt (settings : Settings) (file : Nat) (items : List Node) (path : List Nat) : Prop :=
  ∃ pos x, atAll? items path = some (.var pos x) ∧
    ∀ pos', (lowerAll settings file (putAll items path (.var pos' x))).1 =
      .error ⟨(Node.var pos' x).span, x⟩

/-- `fault` of a program is blamed like that of the `block` of its items. -/
theorem fault_blamable (settings : Settings) (file : Nat) (items : List Node) :
    Lower.Blamable (Context.initial settings) (fault settings file) items := by
  have hgrows : (Context.initial settings).Grows (start settings file items) := .of_eq rfl rfl rfl
  refine ((Lower.block_blamable items (start settings file items)).mono hgrows).congr ?_
  intro ns houtlines
  -- The number of items is reported in an event, and is the same for the same outlines.
  have hlength : ns.length = items.length := by
    simpa using congrArg List.length houtlines
  rw [fault, start, start, hlength]

end Node

/-- `Lower.FailsAt` of the `fault` of a program, as a failure of `lowerAll`. -/
theorem Lower.FailsAt.program {settings : Settings} {file : Nat} {items : List Node}
    {path : List Nat}
    (h : FailsAt (Context.initial settings) (Node.fault settings file) items path) :
    Node.FailsAt settings file items path := by
  obtain ⟨pos, x, hat, -, hfails⟩ := h
  exact ⟨pos, x, hat, fun pos' => Node.lowerAll_eq_error_iff.2 (hfails pos')⟩

/-- A name means something in every program with these settings: it is in the prelude, built in, or
    an effect, which ends in the effect suffix and has more to it. -/
def Settings.Offers (settings : Settings) (x : String) : Prop :=
  (∃ entry ∈ settings.prelude, entry.2 = x) ∨ (Builtin.ofName? x).isSome ∨
    (settings.effectSuffix ≠ "" ∧ settings.effectSuffix.length < x.length ∧
      settings.effectSuffix.toList <:+ x.toList)

instance (settings : Settings) : DecidablePred settings.Offers := fun x =>
  inferInstanceAs (Decidable ((∃ entry ∈ settings.prelude, entry.2 = x) ∨ _ ∨ (_ ∧ _ ∧ _)))

/-- `Offers` is `Knows` of the initial context. -/
theorem Settings.offers_iff {settings : Settings} {x : String} :
    settings.Offers x ↔ (Context.initial settings).Knows x := by
  have hscope : (∃ entry ∈ settings.prelude, entry.2 = x) ↔
      ((Context.initial settings).scope.resolve? x).isSome := by
    rw [Context.scope_initial, Scope.resolve?, List.findIdx?_isSome]
    simp [ScopeEntry.named]
  rw [Offers, Context.Knows, hscope, Context.isEffect_iff]
  rfl

/-- Failures of `lowerAll` are sound, complete and leftmost. A program that fails reports a use of a
    name that its settings do not offer, at the span of that use, whose ends are held within 32 bits.
    The use is the first that fails: with any atom in its place (`putAll`) the program is lowered, or
    fails at a use that comes later in the tree, where a callee comes before its arguments. And a
    program that uses offered names only is lowered. -/
theorem lowerAll_error_leftmost (settings : Settings) (file : Nat) (items : List Node) :
    (∀ e, (Node.lowerAll settings file items).1 = .error e →
      ∃ path pos, Node.atAll? items path = some (.var pos e.name) ∧
        e.span = ⟨min pos (2 ^ 32 - 1), min (pos + e.name.utf8ByteSize) (2 ^ 32 - 1)⟩ ∧
        ¬ settings.Offers e.name ∧
        Node.FailsAt settings file items path ∧
        ∀ pos' a,
          (∃ p, (Node.lowerAll settings file (Node.putAll items path (.atom pos' a))).1 = .ok p) ∨
          ∃ later, path < later ∧
            Node.FailsAt settings file (Node.putAll items path (.atom pos' a)) later) ∧
    ((∀ x ∈ Node.namesAll items, settings.Offers x) →
      ∃ p, (Node.lowerAll settings file items).1 = .ok p) := by
  have hblamable := Node.fault_blamable settings file items
  refine ⟨?_, ?_⟩
  · -- a failure
    intro e he
    rw [Node.lowerAll_eq_error_iff] at he
    rcases hblamable with hnone | ⟨path, hfails, hatom⟩
    · -- there is none, against `he`
      rw [hnone] at he
      simp at he
    · obtain ⟨pos, x, hat, hunknown, hself⟩ := hfails.eq_some
      obtain rfl : ⟨(Node.var pos x).span, x⟩ = e := Option.some.inj (hself.symm.trans he)
      refine ⟨path, pos, hat, rfl, fun hoffers => hunknown (Settings.offers_iff.1 hoffers),
        hfails.program, fun pos' a => ?_⟩
      rcases hatom pos' a with hnone | ⟨later, hlt, hlater⟩
      · exact .inl (Node.exists_lowerAll_eq_ok_iff.2 hnone)
      · exact .inr ⟨later, hlt, hlater.program⟩
  · -- only offered names
    intro hoffers
    rw [Node.exists_lowerAll_eq_ok_iff]
    rcases hblamable with hnone | ⟨path, hfails, -⟩
    · exact hnone
    · obtain ⟨pos, x, hat, hunknown, -⟩ := hfails
      have hx : settings.Offers x := hoffers x (Node.mem_namesAll_of_atAll? hat)
      exact absurd (Settings.offers_iff.1 hx) hunknown

/-- Two names that nothing binds, the first of them inside a block that a macro is called with. -/
theorem lowerAll_error_leftmost_in_macro_call :
    let settings : Settings := ⟨[(.macroName, "let"), (.ordinary, "g")], "!"⟩
    let bad : List Node := [
      .callNamed 0 "let" [.bind 4 "x", .block 7 [.callNamed 8 "print!" [.var 15 "y", .var 18 "x"]]],
      .callNamed 22 "g" [.var 24 "z"]]
    let good : List Node := [.callNamed 0 "g" [.var 2 "print!"]]
    (Node.lowerAll settings 0 bad).1 = .error ⟨⟨15, 16⟩, "y"⟩ ∧
      (∃ path pos, Node.atAll? bad path = some (.var pos "y") ∧ ¬ settings.Offers "y" ∧
        Node.FailsAt settings 0 bad path) ∧
      ∃ p, (Node.lowerAll settings 0 good).1 = .ok p := by
  intro settings bad good
  have herror : (Node.lowerAll settings 0 bad).1 = .error ⟨⟨15, 16⟩, "y"⟩ := by cbv
  have hoffers : ∀ x ∈ Node.namesAll good, settings.Offers x := by decide
  obtain ⟨hleftmost, -⟩ := lowerAll_error_leftmost settings 0 bad
  obtain ⟨path, pos, hat, -, hunknown, hfails, -⟩ := hleftmost _ herror
  exact ⟨herror, ⟨path, pos, hat, hunknown, hfails⟩,
    (lowerAll_error_leftmost settings 0 good).2 hoffers⟩

end Unsugar
