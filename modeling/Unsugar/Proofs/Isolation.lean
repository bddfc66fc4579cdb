import Mathlib
import Unsugar.Proofs.Preservation

/-!
# What was queued before a call

Bindings that were queued before a call belong to what stands around it. An ordinary call puts them
aside, so nothing inside it can open them: the call does what it would do without them, and what it
queues itself comes behind them. A call that a macro sees as structure puts nothing aside. There the
same holds as long as no block is handed to the macro from inside the call, since a block opens all
that is queued where it stands.

## Key results

- `Lower.IsolatedAt`: a computation that leaves alone what was queued before it
- `Lower.call_isolated`: every ordinary call is such a computation
- `Lower.tagged_isolated`: so is every argument of a macro from which no block is handed on
- `call_undisturbed`: both, and what it means for a binding beside a nested call
-/

namespace Unsugar

namespace Scope

mutual

/-- Whether a macro that is given a node is handed a block in it: the node is a block, or a call that
    the macro sees as structure and in which it is handed one. -/
def handsOnBlock (s : Scope) : Node → Bool
  | .block .. => true
  | .var .. | .atom .. | .text .. | .binding .. => false
  | .call pos callee args =>
    s.hasBindings (.call pos callee args) && (s.handsOnBlock callee || s.anyHandsOnBlock args)

/-- Whether a macro is handed a block in one of several nodes. -/
def anyHandsOnBlock (s : Scope) : List Node → Bool
  | [] => false
  | node :: rest => s.handsOnBlock node || s.anyHandsOnBlock rest

end

/-- `resolve?` after `openScope` finds every queued binding. -/
theorem isSome_resolve?_openScope {c : Context} {b : Pending} (hb : b ∈ c.pending) :
    (c.openScope.2.scope.resolve? b.name).isSome := by
  have hne : c.pending.isEmpty = false := by
    rw [List.isEmpty_eq_false_iff]
    exact List.ne_nil_of_mem hb
  have hentry : b.entry ∈ Pending.openedEntries c.pending := by
    simp only [Pending.openedEntries, hne, Bool.false_eq_true, if_false, List.mem_reverse]
    exact List.mem_map_of_mem hb
  rw [Context.scope_openScope, resolve?, List.findIdx?_isSome, List.any_eq_true]
  exact ⟨b.entry, List.mem_append_left _ hentry, by simp [Pending.entry, ScopeEntry.named]⟩

end Scope

namespace Lower

variable {α β : Type}

/-! ## Leaving the queue alone -/

/-- From a context with more in front of its queue, a computation does the same, and leaves the same
    behind the part in front. -/
def IsolatedAt (c : Context) (x : Lower α) : Prop :=
  ∀ queue, EndAlike (fun a b c₁ c₂ => a = b ∧ c₁ = c₂.restorePending queue) Eq
    (x.exec (c.restorePending queue)) (x.exec c)

/-- `pure` leaves the queue alone. -/
theorem isolatedAt_pure (a : α) (c : Context) : IsolatedAt c (pure a : Lower α) :=
  fun _ => ⟨rfl, rfl⟩

/-- `>>=` keeps `IsolatedAt`; the second part may rely on the scope that the first one gives back. -/
theorem IsolatedAt.bind {c : Context} {x : Lower α} {f : α → Lower β} (hx : IsolatedAt c x)
    (hframed : ∀ c, Framed c (x.exec c))
    (hf : ∀ a c', c'.scope = c.scope → IsolatedAt c' (f a)) : IsolatedAt c (x >>= f) := by
  intro queue
  refine ((hx queue).and_left (hframed _)).bind ?_
  intro a b c₁ c₂ hmid
  obtain ⟨⟨rfl, rfl⟩, -, hscope⟩ := hmid
  exact hf a c₂ hscope queue

/-- `IsolatedAt` keeps what was queued before at the front of the queue. -/
theorem IsolatedAt.prefix_pending {c : Context} {x : Lower α}
    (h : IsolatedAt { c with pending := [] } x) :
    Ends (fun _ c' => c.pending <+: c'.pending) (fun _ _ => True) (x.exec c) := by
  have hstart : Context.restorePending { c with pending := [] } c.pending = c := by
    simp only [Context.restorePending, List.append_nil]
  -- The run from the empty queue, with the queue of `c` put in front, is the run from `c`.
  have hrun := h c.pending
  rw [hstart] at hrun
  match hx : x.exec c, hy : x.exec { c with pending := [] } with
  | (.ok a, c₁), (.ok b, c₂) =>
    rw [hx, hy] at hrun
    obtain ⟨-, rfl⟩ := hrun
    exact List.prefix_append _ _
  | (.error _, _), _ => trivial
  | (.ok _, _), (.error _, _) => rw [hx, hy] at hrun; exact hrun.elim

/-! ## Leaves -/

/-- `literal` does not look at the queue. -/
theorem literal_isolated (l : Literal) (c : Context) : IsolatedAt c (literal l) :=
  fun _ => ⟨rfl, rfl⟩

/-- `queue` puts a binding behind what was there. -/
theorem queue_isolated (b : Pending) (c : Context) : IsolatedAt c (Lower.queue b) := by
  intro queue
  refine ⟨rfl, ?_⟩
  simp only [Context.note, Context.restorePending, List.append_assoc]

/-- `name` does not look at the queue. -/
theorem name_isolated (span : Span) (x : String) (c : Context) : IsolatedAt c (name span x) := by
  intro queue
  rw [name, exec_get_bind, exec_get_bind]
  have hscope : (c.restorePending queue).scope = c.scope := rfl
  -- The scope and the effect suffix decide, and both are the same whatever is queued.
  rw [hscope]
  cases c.scope.resolve? x with
  | some i => exact ⟨rfl, rfl⟩
  | none =>
    cases Builtin.ofName? x with
    | some b => exact ⟨rfl, rfl⟩
    | none => exact endAlike_ite (fun _ => ⟨rfl, rfl⟩) (fun _ => rfl)

/-- `node` of anything but a block or a call leaves the queue alone. -/
theorem leaf_isolated (d : Delivery) (k : NameKind) (c : Context) {n : Node}
    (hblock : ∀ pos ns, n ≠ .block pos ns) (hcall : ∀ pos callee args, n ≠ .call pos callee args) :
    IsolatedAt c (node d k n) := by
  cases n with
  | var pos x =>
    rw [node]
    exact (name_isolated _ x c).bind (name_framed _ x) fun t c' _ => isolatedAt_pure _ c'
  | atom pos x =>
    rw [node]
    exact (literal_isolated _ c).bind (literal_framed _) fun t c' _ => isolatedAt_pure _ c'
  | text pos content =>
    rw [node]
    exact (literal_isolated _ c).bind (literal_framed _) fun t c' _ => isolatedAt_pure _ c'
  | binding pos level consume x =>
    rw [node]
    exact (queue_isolated _ c).bind (queue_framed _) fun t c' _ => isolatedAt_pure _ c'
  | block pos ns => exact absurd rfl (hblock pos ns)
  | call pos callee args => exact absurd rfl (hcall pos callee args)

/-! ## Calls -/

/-- `node` of an ordinary call puts what is queued aside and back again, whatever its callee and its
    arguments are. -/
theorem call_isolated {d : Delivery} {pos : Nat} {callee : Node} {args : List Node} {c : Context}
    (h : d = .tagged → c.scope.hasBindings (.call pos callee args) = false) (k : NameKind) :
    IsolatedAt c (node d k (.call pos callee args)) := by
  intro queue
  rw [exec_call_ordinary h,
    exec_call_ordinary (show d = .tagged → (c.restorePending queue).scope.hasBindings _ = false from h)]
  -- With the queue put aside, the two runs are one and the same up to the end.
  refine (endAlike_self _ _).bind ?_
  intro fn fn' c₁ c₂ hmid
  obtain ⟨rfl, rfl, -⟩ := hmid
  rw [exec_noteIf_bind, exec_noteIf_bind]
  refine (endAlike_self _ _).bind ?_
  intro values values' c₃ c₄ hmid
  obtain ⟨rfl, rfl, -⟩ := hmid
  rw [exec_modify_bind, exec_modify_bind]
  refine ⟨rfl, ?_⟩
  -- What is put back is the queue in front and then the rest.
  simp only [Context.restorePending, List.append_assoc]

/-- `node` of a call that is structure leaves the queue alone if its callee and its arguments do. -/
theorem structure_isolated {pos : Nat} {callee : Node} {args : List Node} {c : Context}
    (h : c.scope.hasBindings (.call pos callee args)) (k : NameKind)
    (hcallee : ∀ k, IsolatedAt c (node .tagged k callee))
    (hargs : ∀ c', c'.scope = c.scope → IsolatedAt c' (arguments .tagged args)) :
    IsolatedAt c (node .tagged k (.call pos callee args)) := by
  intro queue
  rw [exec_call_structure h,
    exec_call_structure (show (c.restorePending queue).scope.hasBindings _ from h)]
  refine IsolatedAt.bind (hcallee _) (node_framed _ _ _) ?_ queue
  intro head c₁ hscope
  refine (hargs c₁ hscope).bind (arguments_framed _ _) ?_
  intro ts c₂ _
  exact isolatedAt_pure _ c₂

/-- `node` and `arguments` of what a macro is given leave the queue alone if no block is handed on in
    it, by `Lower.induct_arguments`. -/
private theorem isolated_all :
    (∀ k n (c : Context), c.scope.handsOnBlock n = false → IsolatedAt c (node .tagged k n)) ∧
    ∀ ns (c : Context), c.scope.anyHandsOnBlock ns = false →
      IsolatedAt c (arguments .tagged ns) := by
  refine induct_arguments
    (fun k n => ∀ c : Context, c.scope.handsOnBlock n = false → IsolatedAt c (node .tagged k n))
    (fun ns => ∀ c : Context, c.scope.anyHandsOnBlock ns = false →
      IsolatedAt c (arguments .tagged ns)) ?_ ?_ ?_ ?_ ?_ ?_ ?_ ?_
  · -- var
    intro k pos x c _
    exact leaf_isolated .tagged k c (by simp) (by simp)
  · -- atom
    intro k pos x c _
    exact leaf_isolated .tagged k c (by simp) (by simp)
  · -- text
    intro k pos content c _
    exact leaf_isolated .tagged k c (by simp) (by simp)
  · -- binding
    intro k pos level consume x c _
    exact leaf_isolated .tagged k c (by simp) (by simp)
  · -- block
    intro k pos ns c hblock
    rw [Scope.handsOnBlock] at hblock
    cases hblock
  · -- call
    intro k pos callee args hcallee hargs c hblock
    rw [Scope.handsOnBlock] at hblock
    cases h : c.scope.hasBindings (.call pos callee args) with
    | false => exact call_isolated (fun _ => h) k
    | true =>
      rw [h, Bool.true_and, Bool.or_eq_false_iff] at hblock
      refine structure_isolated h k (fun k => hcallee k c hblock.1) ?_
      intro c' hscope
      exact hargs c' (by rw [hscope]; exact hblock.2)
  · -- no arguments
    intro c _
    rw [arguments]
    exact isolatedAt_pure _ c
  · -- an argument and the rest
    intro arg rest harg hrest c hblock
    rw [Scope.anyHandsOnBlock, Bool.or_eq_false_iff] at hblock
    rw [arguments]
    refine (harg c hblock.1).bind (node_framed _ _ _) ?_
    intro t c₁ hscope
    refine (hrest c₁ (by rw [hscope]; exact hblock.2)).bind (arguments_framed _ _) ?_
    intro ts c₂ _
    exact isolatedAt_pure _ c₂

/-- `node` of an argument of a macro leaves the queue alone if no block is handed on from it. -/
theorem tagged_isolated (k : NameKind) {n : Node} {c : Context}
    (h : c.scope.handsOnBlock n = false) : IsolatedAt c (node .tagged k n) :=
  isolated_all.1 k n c h

/-! ## A binding beside a nested call -/

/-- `node` of a binding queues it, and gives the scope back. -/
theorem binding_queued (d : Delivery) (k : NameKind) (pos level : Nat) (consume : Consume)
    (x : String) (c : Context) :
    Ends (fun _ c' => c'.scope = c.scope ∧ ⟨level, consume, x, k⟩ ∈ c'.pending) (fun _ _ => True)
      ((node d k (.binding pos level consume x)).exec c) := by
  rw [node]
  exact ⟨rfl, List.mem_append_right _ (List.mem_singleton_self _)⟩

/-- `node` of a call with a binding as its argument: it is still queued after the call if the argument
    behind it leaves the queue alone. -/
theorem call_queues_binding {c : Context} {pos q level : Nat} {consume : Consume} {x : String}
    {callee n : Node} (k : NameKind)
    (hn : ∀ c', c'.scope = c.scope →
      IsolatedAt c' (node (if c.scope.isMacro callee then .tagged else .plain) .ordinary n)) :
    Ends (fun _ c' => ⟨level, consume, x, .ordinary⟩ ∈ c'.pending) (fun _ _ => True)
      ((node .plain k (.call pos callee [.binding q level consume x, n])).exec c) := by
  have hplain : Delivery.plain = .tagged →
      c.scope.hasBindings (.call pos callee [.binding q level consume x, n]) = false := nofun
  rw [exec_call_ordinary hplain]
  -- the callee
  refine ((ends_true _).and (node_framed _ _ _ _)).bind ?_
  intro fn c₁ hmid
  obtain ⟨-, -, hscope⟩ := hmid
  rw [exec_noteIf_bind, arguments, bind_assoc]
  -- the binding
  refine (binding_queued _ _ _ _ _ _ _).bind ?_
  intro t c₂ hmid
  obtain ⟨hscope₂, hmem⟩ := hmid
  rw [arguments, bind_assoc, bind_assoc]
  -- The other argument leaves the queue alone, so the binding is still in it.
  refine (hn { c₂ with pending := [] } (hscope₂.trans hscope)).prefix_pending.bind ?_
  intro u c₃ hqueue
  rw [arguments]
  exact List.mem_append_right _ (hqueue.subset hmem)

/-- From a queue a computation does what it does from an empty one, and leaves what it leaves from
    there, behind the queue. -/
def Undisturbed (x : Lower Term) (c : Context) (queue : List Pending) : Prop :=
  let queued := x.exec { c with pending := queue }
  let alone := x.exec { c with pending := [] }
  queued.1 = alone.1 ∧
    ∀ t, alone.1 = .ok t → queued.2 = { alone.2 with pending := queue ++ alone.2.pending }

/-- `IsolatedAt` from an empty queue is `Undisturbed` by any queue. -/
theorem IsolatedAt.undisturbed {c : Context} {x : Lower Term}
    (h : IsolatedAt { c with pending := [] } x) (queue : List Pending) : Undisturbed x c queue := by
  have hrun := h queue
  have hstart : Context.restorePending { c with pending := [] } queue =
      { c with pending := queue } := by
    simp only [Context.restorePending, List.append_nil]
  rw [hstart] at hrun
  unfold Undisturbed
  -- Runs that end differently are ruled out by `hrun`.
  match x.exec { c with pending := queue }, x.exec { c with pending := [] }, hrun with
  | (.ok t, c₁), (.ok u, c₂), hrun =>
    obtain ⟨rfl, rfl⟩ := hrun
    exact ⟨rfl, fun _ _ => rfl⟩
  | (.error e, c₁), (.error e', c₂), hrun =>
    exact ⟨congrArg Except.error hrun, nofun⟩

end Lower

/-- `value` of a call, and `wrapped` of a call from which no block is handed on, is `Undisturbed` by
    what was queued before it: it gives the same result whatever is queued; the literals, the scope and
    the events are the same, and what it queues comes behind. So a binding beside a nested call is in
    scope for what follows. -/
theorem call_undisturbed (c : Context) (pos : Nat) (callee : Node) (args : List Node) :
    (∀ queue, Lower.Undisturbed (Lower.value (.call pos callee args)) c queue) ∧
    (c.scope.handsOnBlock (.call pos callee args) = false →
      ∀ queue, Lower.Undisturbed (Lower.wrapped (.call pos callee args)) c queue) ∧
    ∀ (pos' q level : Nat) (consume : Consume) (x : String) (outer : Node),
      (c.scope.isMacro outer → c.scope.handsOnBlock (.call pos callee args) = false) →
      ∀ t c', (Lower.value (.call pos' outer
          [.binding q level consume x, .call pos callee args])).exec c = (.ok t, c') →
        ⟨level, consume, x, .ordinary⟩ ∈ c'.pending ∧
          (c'.openScope.2.scope.resolve? x).isSome := by
  have hvalue (c : Context) :
      Lower.IsolatedAt c (Lower.node .plain .ordinary (.call pos callee args)) :=
    Lower.call_isolated (d := .plain) nofun .ordinary
  refine ⟨?_, ?_, ?_⟩
  · -- as an ordinary value
    intro queue
    exact (hvalue _).undisturbed queue
  · -- as an argument of a macro
    intro hblock queue
    exact Lower.IsolatedAt.undisturbed (Lower.tagged_isolated .ordinary hblock) queue
  · -- beside a binding
    intro pos' q level consume x outer hblock t c' hrun
    have hmem : ⟨level, consume, x, .ordinary⟩ ∈ c'.pending := by
      refine (Lower.call_queues_binding .ordinary ?_).of_ok hrun
      intro c₁ hscope
      cases hmacro : c.scope.isMacro outer with
      | true => exact Lower.tagged_isolated .ordinary (by rw [hscope]; exact hblock hmacro)
      | false => exact hvalue c₁
    exact ⟨hmem, Scope.isSome_resolve?_openScope hmem⟩

/-- A macro's argument with bindings in it, in which an ordinary call takes a block. -/
theorem call_undisturbed_around_structure :
    let c := Context.initial ⟨[(.macroName, "let"), (.ordinary, "f")], "!"⟩
    let n := Node.callNamed 0 "f" [.bind 0 "y", .callNamed 0 "f" [.block 0 [.text 0 "t"]]]
    let x : Pending := ⟨2, .scope, "x", .ordinary⟩
    let item := Node.callNamed 0 "let" [.bindLevel 0 2 "x", n]
    let t := Term.app (.app (.var 1) (.app (.lit 2) (.lit 4)))
      (.app (.app (.lit 3) (.app (.lit 1) (.var 0)))
        (.app (.app (.lit 2) (.lit 5))
          (.app (.app (.lit 1) (.app (.var 0) (.abs (.lit 6)))) (.lit 0))))
    c.scope.handsOnBlock n = false ∧ Lower.Undisturbed (Lower.wrapped n) c [x] ∧
      ((Lower.value item).exec c).1 = .ok t ∧ x ∈ ((Lower.value item).exec c).2.pending := by
  intro c n x item t
  have hblock : c.scope.handsOnBlock n = false := by cbv
  have hitem : ((Lower.value item).exec c).1 = .ok t := by cbv
  have hrun : (Lower.value item).exec c = (.ok t, ((Lower.value item).exec c).2) := by
    rw [← hitem]
  obtain ⟨-, hwrapped, hbinding⟩ := call_undisturbed c 0 (.var 0 "f")
    [.bind 0 "y", .callNamed 0 "f" [.block 0 [.text 0 "t"]]]
  exact ⟨hblock, hwrapped hblock [x], hitem,
    (hbinding 0 0 2 .scope "x" (.var 0 "let") (fun _ => hblock) t _ hrun).1⟩

/-- A block that is handed on in a macro's argument opens what was queued before. From a queue, the
    argument is not what it is from an empty one, and the name that was queued is not in scope for
    the item that follows. -/
theorem wrapped_block_not_undisturbed :
    let settings : Settings := ⟨[(.macroName, "let"), (.ordinary, "f")], "!"⟩
    let c := Context.initial settings
    let n := Node.callNamed 8 "f" [.bind 10 "y", .block 13 [.var 14 "y"]]
    let x : Pending := ⟨1, .scope, "x", .ordinary⟩
    ¬ Lower.Undisturbed (Lower.wrapped n) c [x] ∧
      (Node.lowerAll settings 0 [.callNamed 0 "let" [.bind 4 "x", n], .var 20 "x"]).1 =
        .error ⟨⟨20, 21⟩, "x"⟩ := by
  intro settings c n x
  have hqueued : ((Lower.wrapped n).exec { c with pending := [x] }).1 =
      .ok (.app (.app (.lit 3) (.app (.lit 1) (.var 0)))
        (.app (.app (.lit 2) (.lit 4)) (.app (.abs (.abs (.var 0))) (.lit 0)))) := by cbv
  have halone : ((Lower.wrapped n).exec { c with pending := [] }).1 =
      .ok (.app (.app (.lit 3) (.app (.lit 1) (.var 0)))
        (.app (.app (.lit 2) (.lit 4)) (.app (.abs (.var 0)) (.lit 0)))) := by cbv
  refine ⟨?_, by cbv⟩
  intro h
  -- With `x` in the queue the block opens one abstraction more.
  have hsame := h.1
  rw [hqueued, halone] at hsame
  simp at hsame

end Unsugar
