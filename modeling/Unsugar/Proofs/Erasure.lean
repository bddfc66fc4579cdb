import Mathlib
import Unsugar.Proofs.Isolation
import Unsugar.Proofs.Observation

/-!
# Taking the tags away

A node may be lowered as an ordinary value or as an argument of a macro. The two ways treat bindings,
definitions, calls without arguments and the order of arguments each on its own, and only the ordinary
one keeps aside what was queued before a call. For a node without blocks they agree all the same: the
tagged term is the ordinary one once its tags are taken away, and both leave the same context. What was
queued before makes no difference then, since only a block opens it.

## Key results

- `Lower.IsolatedAt.set_aside`: putting a queue aside around a computation that leaves it alone
- `Lower.plain_call_alike`: an ordinary call without blocks is its callee followed by its arguments
- `erase_wrapped_eq_value`: both ways of lowering a node without blocks
-/

namespace Unsugar

namespace Node

mutual

/-- Whether no block stands in a node at any depth. -/
def blockFree : Node → Bool
  | .block .. => false
  | .var .. | .atom .. | .text .. | .binding .. => true
  | .call _ callee args => callee.blockFree && allBlockFree args

/-- Whether no block stands in any of several nodes. -/
def allBlockFree : List Node → Bool
  | [] => true
  | n :: rest => n.blockFree && allBlockFree rest

end

end Node

/-- Takes the tags away: a call is applied to its arguments from left to right, and to the literal that
    ends a list if there are none. -/
def Observer.erase : Observer Term where
  block := none
  value := fun t => t
  binding := fun i => some (.lit i)
  call := fun fn args => fn.appAll (if args.isEmpty then [.lit 0] else args)

namespace Lower

/-! ## Without blocks the queue is not read -/

/-- `IsolatedAt` computations leave the queue alone, so that it may as well be put aside around them.
    -/
theorem IsolatedAt.set_aside {α : Type} {c : Context} {x : Lower α}
    (h : IsolatedAt { c with pending := [] } x) :
    EndAlike (fun a b c₁ c₂ => a = b ∧ c₁ = c₂) Eq (x.exec c)
      ((do
        let a ← x
        modify (·.restorePending c.pending)
        return a : Lower α).exec { c with pending := [] }) := by
  have hrun := h c.pending
  have hstart : Context.restorePending { c with pending := [] } c.pending = c := by
    simp only [Context.restorePending, List.append_nil]
  rw [hstart] at hrun
  have hpure : x.exec c = (x >>= pure).exec c := by rw [bind_pure]
  rw [hpure]
  exact hrun.bind fun a b c₁ c₂ h => h

/-- `node` of a node without blocks, as an ordinary value, leaves the queue alone. -/
theorem plain_isolated {n : Node} (h : n.blockFree) (k : NameKind) (c : Context) :
    IsolatedAt c (node .plain k n) := by
  cases n with
  | block pos ns =>
    rw [Node.blockFree] at h
    cases h
  | call pos callee args => exact call_isolated (by simp) k
  | var | atom | text | binding => exact leaf_isolated .plain k c (by simp) (by simp)

/-- `arguments` without blocks, as ordinary values, leave the queue alone. -/
theorem plain_arguments_isolated {ns : List Node} (h : Node.allBlockFree ns) (c : Context) :
    IsolatedAt c (arguments .plain ns) := by
  induction ns generalizing c with
  | nil =>
    rw [arguments]
    exact isolatedAt_pure _ c
  | cons n rest ih =>
    rw [Node.allBlockFree, Bool.and_eq_true] at h
    rw [arguments]
    refine (plain_isolated h.1 _ c).bind (node_framed _ _ _) fun t c₁ _ => ?_
    exact (ih h.2 c₁).bind (arguments_framed _ _) fun ts c₂ _ => isolatedAt_pure _ c₂

/-- `node` of an ordinary call without blocks, of a name that is no macro, is its callee followed by
    its arguments: nothing has to be put aside. -/
theorem plain_call_alike {pos : Nat} {callee : Node} {args : List Node} {c : Context}
    (hcallee : callee.blockFree) (hargs : Node.allBlockFree args)
    (hcalled : c.scope.isMacro callee = false) (k : NameKind) :
    EndAlike (fun t u c₁ c₂ => t = u ∧ c₁ = c₂) Eq
      ((do
        let fn ← node .plain (Node.definitionKind args) callee
        let values ← arguments .plain args
        return fn.appAll (if args.isEmpty then [.reserved .nil] else values) : Lower Term).exec c)
      ((node .plain k (.call pos callee args)).exec c) := by
  have hparts : IsolatedAt { c with pending := [] } (do
      let fn ← node .plain (Node.definitionKind args) callee
      let values ← arguments .plain args
      return fn.appAll (if args.isEmpty then [.reserved .nil] else values)) := by
    refine (plain_isolated hcallee _ _).bind (node_framed _ _ _) fun fn c₁ _ => ?_
    refine (plain_arguments_isolated hargs c₁).bind (arguments_framed _ _) fun values c₂ _ => ?_
    exact isolatedAt_pure _ c₂
  -- Setting the queue aside around the parts changes nothing, as they do not look at it.
  have hcall := hparts.set_aside
  simp only [bind_assoc, pure_bind] at hcall
  rw [exec_call_ordinary (d := .plain) (by simp)]
  simpa only [hcalled, noteIf, Delivery.value, Bool.false_eq_true, if_false, pure_bind] using hcall

/-! ## Both ways of lowering -/

/-- An argument of a macro and an ordinary value: the tagged term without its tags is the ordinary one,
    and the contexts at the end are the same. -/
abbrev NodeErases (k : NameKind) (n : Node) : Prop :=
  n.blockFree → ∀ c : Context,
    EndAlike (fun t u c₁ c₂ => Observer.erase.see? t = some u ∧ c₁ = c₂) Eq
      ((node .tagged k n).exec c) ((node .plain k n).exec c)

/-- `NodeErases` for several arguments. -/
abbrev ArgumentsErase (ns : List Node) : Prop :=
  Node.allBlockFree ns → ∀ c : Context,
    EndAlike (fun ts us c₁ c₂ => ts.mapM Observer.erase.see? = some us ∧ c₁ = c₂) Eq
      ((arguments .tagged ns).exec c) ((arguments .plain ns).exec c)

/-- `Delivery.value` differs by a tag only. -/
theorem value_erases (x : Lower Term) (c : Context) :
    EndAlike (fun t u c₁ c₂ => Observer.erase.see? t = some u ∧ c₁ = c₂) Eq
      ((do return Delivery.tagged.value (← x) : Lower Term).exec c)
      ((do return Delivery.plain.value (← x) : Lower Term).exec c) := by
  refine (endAlike_self x c).bind ?_
  intro t u c₁ c₂ hmid
  obtain ⟨rfl, rfl, -⟩ := hmid
  exact ⟨Observer.see?_value _ t, rfl⟩

/-- `node` of a binding queues it in both ways, and its term is the place of its name. -/
theorem binding_erases (k : NameKind) (pos level : Nat) (consume : Consume) (x : String) :
    NodeErases k (.binding pos level consume x) := by
  intro _ c
  rw [node, node]
  exact ⟨Observer.see?_binding _ _, rfl⟩

/-- `node` of a call that has bindings: its parts are delivered one by one, and applying their ordinary
    terms is what taking the tags away comes to. -/
theorem structure_erases {pos : Nat} {callee : Node} {args : List Node} {c : Context}
    (hbindings : c.scope.hasBindings (.call pos callee args))
    (hcallee : ∀ k, NodeErases k callee) (hargs : ArgumentsErase args)
    (hfree : callee.blockFree ∧ Node.allBlockFree args) (k : NameKind) :
    EndAlike (fun t u c₁ c₂ => Observer.erase.see? t = some u ∧ c₁ = c₂) Eq
      ((node .tagged k (.call pos callee args)).exec c)
      ((node .plain k (.call pos callee args)).exec c) := by
  have hcalled : c.scope.isMacro callee = false := by
    rw [Scope.hasBindings, Bool.and_eq_true, Bool.not_eq_true'] at hbindings
    exact hbindings.1
  -- First with tags against the parts without tags, then the parts against the ordinary call.
  have hparts : EndAlike (fun t u c₁ c₂ => Observer.erase.see? t = some u ∧ c₁ = c₂) Eq
      ((node .tagged k (.call pos callee args)).exec c)
      ((do
        let fn ← node .plain (Node.definitionKind args) callee
        let values ← arguments .plain args
        return fn.appAll (if args.isEmpty then [.reserved .nil] else values) :
          Lower Term).exec c) := by
    rw [exec_call_structure hbindings]
    refine (hcallee _ hfree.1 c).bind ?_
    intro head fn c₁ c₂ hmid
    obtain ⟨hhead, rfl⟩ := hmid
    refine ((hargs hfree.2 c₁).and_right (arguments_length _ _ _)).bind ?_
    intro ts values c₂ c₃ hmid
    obtain ⟨⟨hts, rfl⟩, hlength⟩ := hmid
    -- A call without arguments is applied to `nil` in both ways.
    have hempty : values.isEmpty = args.isEmpty := by
      rw [Bool.eq_iff_iff, List.isEmpty_iff_length_eq_zero, List.isEmpty_iff_length_eq_zero, hlength]
    refine ⟨?_, rfl⟩
    rw [Observer.see?_call _ hhead hts, ← hempty]
    rfl
  exact hparts.trans (plain_call_alike hfree.1 hfree.2 hcalled k) fun _ _ _ _ _ _ h₁ h₂ =>
    ⟨h₁.1.trans (congrArg some h₂.1), h₁.2.trans h₂.2⟩

/-- `node` of a call, whether a macro sees it as structure or as a value. -/
theorem call_erases (k : NameKind) (pos : Nat) (callee : Node) (args : List Node)
    (hcallee : ∀ k, NodeErases k callee) (hargs : ArgumentsErase args) :
    NodeErases k (.call pos callee args) := by
  intro hfree c
  rw [Node.blockFree, Bool.and_eq_true] at hfree
  cases hbindings : c.scope.hasBindings (.call pos callee args) with
  | true => exact structure_erases hbindings hcallee hargs hfree k
  | false =>
    -- The macro is given the value of the call, lowered in the ordinary way.
    rw [exec_call_ordinary fun _ => hbindings, exec_call_ordinary (d := .plain) (by simp)]
    refine (endAlike_self _ _).bind ?_
    intro fn fn' c₁ c₂ hmid
    obtain ⟨rfl, rfl, -⟩ := hmid
    rw [exec_noteIf_bind, exec_noteIf_bind]
    refine (endAlike_self _ _).bind ?_
    intro values values' c₃ c₄ hmid
    obtain ⟨rfl, rfl, -⟩ := hmid
    exact ⟨Observer.see?_value _ _, rfl⟩

/-- `node` and `arguments` without blocks, with tags and without, by `Lower.induct_arguments`. -/
private theorem erases_all : (∀ k n, NodeErases k n) ∧ ∀ ns, ArgumentsErase ns := by
  refine induct_arguments NodeErases ArgumentsErase ?_ ?_ ?_ binding_erases ?_ call_erases ?_ ?_
  · -- var
    intro k pos x _ c
    rw [node, node]
    exact value_erases _ c
  · -- atom
    intro k pos x _ c
    rw [node, node]
    exact value_erases _ c
  · -- text
    intro k pos content _ c
    rw [node, node]
    exact value_erases _ c
  · -- block
    intro k pos ns hfree
    rw [Node.blockFree] at hfree
    cases hfree
  · -- no arguments
    intro _ c
    rw [arguments, arguments]
    exact ⟨rfl, rfl⟩
  · -- an argument and the rest
    intro arg rest harg hrest hfree c
    rw [Node.allBlockFree, Bool.and_eq_true] at hfree
    rw [arguments, arguments]
    refine (harg hfree.1 c).bind ?_
    intro t u c₁ c₂ hmid
    obtain ⟨ht, rfl⟩ := hmid
    refine (hrest hfree.2 c₁).bind ?_
    intro ts us c₂ c₃ hmid
    obtain ⟨hts, rfl⟩ := hmid
    refine ⟨?_, rfl⟩
    rw [List.mapM_cons, ht, hts]
    rfl

/-- `node` without blocks, with tags and without. -/
theorem node_erases (k : NameKind) (n : Node) : NodeErases k n :=
  erases_all.1 k n

end Lower

/-- `wrapped` and `value` agree on a node without blocks. From one context they fail with the same
    error, or neither of them does. Then `Observer.erase` of the tagged term is the ordinary term, and
    both leave the same context: the scope, the literals and the queue with all that is known of each
    binding in it. -/
theorem erase_wrapped_eq_value (c : Context) (n : Node) (h : n.blockFree) :
    let wrapped := (Lower.wrapped n).exec c
    let ordinary := (Lower.value n).exec c
    (∃ e, wrapped.1 = .error e ∧ ordinary.1 = .error e) ∨
      ∃ t u, wrapped.1 = .ok t ∧ ordinary.1 = .ok u ∧ Observer.erase.see? t = some u ∧
        wrapped.2 = ordinary.2 := by
  intro wrapped ordinary
  have halike : Lower.EndAlike (fun t u c₁ c₂ => Observer.erase.see? t = some u ∧ c₁ = c₂) Eq
      wrapped ordinary := Lower.node_erases .ordinary n h c
  match wrapped, ordinary, halike with
  | (.error e, _), (.error e', _), he => exact .inl ⟨e, rfl, congrArg Except.error he.symm⟩
  | (.ok t, c₁), (.ok u, c₂), hpost => exact .inr ⟨t, u, rfl, rfl, hpost.1, hpost.2⟩

/-- A definition with a parameter that makes it a macro, a call of a macro and a call without arguments,
    behind a binding that was queued before. -/
theorem erase_wrapped_eq_value_definition :
    let c := (Context.initial ⟨[(.macroName, "m"), (.ordinary, "f")], "!"⟩).setPending
      [⟨2, .scope, "q", .ordinary⟩]
    let n := Node.callNamed 0 "f" [.call 0 (.bindLevel 0 2 "g") [.bindBlock 0 "v"],
      .callNamed 0 "m" [.bind 0 "x", .callNamed 0 "print!" []],
      .call 0 (.callNamed 0 "f" [.bind 0 "y"]) []]
    let u := Term.app (.app (.app (.var 0) (.app (.lit 4) (.lit 5)))
        (.app (.app (.var 1) (.app (.lit 2) (.lit 6)))
          (.app (.lit 1) (.app (.effect 7) (.lit 0)))))
      (.app (.app (.var 0) (.lit 8)) (.lit 0))
    n.blockFree ∧ ((Lower.value n).exec c).1 = .ok u ∧
      ∃ t, ((Lower.wrapped n).exec c).1 = .ok t ∧ Observer.erase.see? t = some u ∧
        ((Lower.wrapped n).exec c).2 = ((Lower.value n).exec c).2 := by
  intro c n u
  have hfree : n.blockFree := by cbv
  have hordinary : ((Lower.value n).exec c).1 = .ok u := by cbv
  refine ⟨hfree, hordinary, ?_⟩
  rcases erase_wrapped_eq_value c n hfree with
    ⟨e, -, he⟩ | ⟨t, u', ht, hu', herase, hcontext⟩
  · rw [hordinary] at he
    cases he
  · rw [hordinary, Except.ok.injEq] at hu'
    rw [← hu'] at herase
    exact ⟨t, ht, herase, hcontext⟩

end Unsugar
