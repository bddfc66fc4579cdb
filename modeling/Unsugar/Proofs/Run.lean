import Unsugar.Lowering.Basic
import Unsugar.Proofs.Context

/-!
# Reasoning about runs

`Lower.Ends` says what holds at the end of one run, and `Lower.EndAlike` what holds at the ends of two
runs side by side. Both are stated of the outcome of a run from a given context, so that a proof goes
through a sequence part by part (`Ends.bind`, `EndAlike.bind`) and names the contexts in between.

`Lower.induct` is the induction over a tree that follows lowering: a statement about nodes, one about
arguments and one about items. A block needs no statement of its own, since it lowers its items and
then closes their scopes (`Lower.block_eq`). `Lower.induct_arguments` is the part of it for nodes and
arguments alone.
-/

namespace Unsugar

namespace Lower

variable {α β α' β' : Type}

/-! ## Steps that touch the context only -/

@[simp] theorem exec_get_bind (f : Context → Lower α) (c : Context) :
    (get >>= f).exec c = (f c).exec c := rfl

@[simp] theorem exec_modify_bind (g : Context → Context) (f : Unit → Lower α) (c : Context) :
    (modify g >>= f).exec c = (f ()).exec (g c) := rfl

@[simp] theorem exec_modifyGet_bind (g : Context → β × Context) (f : β → Lower α) (c : Context) :
    (modifyGet g >>= f).exec c = (f (g c).1).exec (g c).2 := rfl

/-- `noteIf` changes the events only, whether or not its condition holds. -/
@[simp] theorem exec_noteIf_bind (condition : Bool) (e : Event) (f : Unit → Lower α) (c : Context) :
    (noteIf condition e >>= f).exec c =
      (f ()).exec { c with events := if condition then e :: c.events else c.events } := by
  cases condition <;> rfl

/-- A run of `x >>= f` that succeeds is a run of `x` and then one of `f` that do. -/
theorem exec_bind_eq_ok {x : Lower α} {f : α → Lower β} {c c' : Context} {b : β}
    (h : (x >>= f).exec c = (.ok b, c')) :
    ∃ a c₁, x.exec c = (.ok a, c₁) ∧ (f a).exec c₁ = (.ok b, c') := by
  rw [exec_bind] at h
  rcases hx : x.exec c with ⟨e | a, c₁⟩
  · -- `x` failed, and so did the whole
    simp [hx] at h
  · rw [hx] at h
    exact ⟨a, c₁, rfl, h⟩

/-! ## One run -/

/-- At the end of a run, `post` holds of a result and its context, and `fail` of a failure and its
    context. -/
def Ends (post : α → Context → Prop) (fail : Unresolved → Context → Prop) :
    Except Unresolved α × Context → Prop
  | (.ok a, c) => post a c
  | (.error e, c) => fail e c

section Ends

variable {post mid : α → Context → Prop} {post' : β → Context → Prop}
  {fail : Unresolved → Context → Prop} {x : Lower α} {f : α → Lower β} {c : Context}

/-- `Ends` of `pure`: `post` holds of the value and the context. -/
@[simp] theorem ends_pure (a : α) : Ends post fail ((pure a : Lower α).exec c) ↔ post a c := Iff.rfl

/-- `Ends` of `x >>= f`: `x` ends in `mid`, and from wherever `mid` holds, `f` ends in `post'`. -/
theorem Ends.bind (hx : Ends mid fail (x.exec c))
    (hf : ∀ a c', mid a c' → Ends post' fail ((f a).exec c')) :
    Ends post' fail ((x >>= f).exec c) := by
  -- A failure of `x` is the failure of the whole, so `fail` is the same for both parts.
  rw [exec_bind]
  match h : x.exec c with
  | (.ok a, c') => rw [h] at hx; exact hf a c' hx
  | (.error e, c') => rw [h] at hx; exact hx

/-- `Ends` asks nothing of a run if `post` and `fail` are `True`. -/
theorem ends_true (r : Except Unresolved α × Context) :
    Ends (fun _ _ => True) (fun _ _ => True) r := by
  match r with
  | (.ok _, _) => trivial
  | (.error _, _) => trivial

/-- `Ends` is monotone in `post` and in `fail`. -/
theorem Ends.imp {post₁ post₂ : α → Context → Prop} {fail₁ fail₂ : Unresolved → Context → Prop}
    {r : Except Unresolved α × Context} (h : Ends post₁ fail₁ r)
    (hp : ∀ a c, post₁ a c → post₂ a c) (hf : ∀ e c, fail₁ e c → fail₂ e c) :
    Ends post₂ fail₂ r := by
  match r, h with
  | (.ok a, c), h => exact hp a c h
  | (.error e, c), h => exact hf e c h

/-- Two statements about one run: both `post₁` and `post₂` hold of a success; of a failure, `fail₁` is
    kept. -/
theorem Ends.and {post₁ post₂ : α → Context → Prop} {fail₁ fail₂ : Unresolved → Context → Prop}
    {r : Except Unresolved α × Context} (h₁ : Ends post₁ fail₁ r) (h₂ : Ends post₂ fail₂ r) :
    Ends (fun a c => post₁ a c ∧ post₂ a c) fail₁ r := by
  match r, h₁, h₂ with
  | (.ok _, _), h₁, h₂ => exact ⟨h₁, h₂⟩
  | (.error _, _), h₁, _ => exact h₁

/-- `Ends` at a run that is known to succeed. -/
theorem Ends.of_ok (h : Ends post fail (x.exec c)) {a : α} {c' : Context}
    (hx : x.exec c = (.ok a, c')) : post a c' := by
  rw [hx] at h
  exact h

/-- `Ends` at an outcome whose result is known to be a success. -/
theorem Ends.of_fst_eq_ok {r : Except Unresolved α × Context} (h : Ends post fail r) {a : α}
    (hr : r.1 = .ok a) : post a r.2 := by
  obtain ⟨result, c'⟩ := r
  subst hr
  exact h

/-- `Ends` at an outcome whose result is known to be a failure. -/
theorem Ends.of_fst_eq_error {r : Except Unresolved α × Context} (h : Ends post fail r)
    {e : Unresolved} (hr : r.1 = .error e) : fail e r.2 := by
  obtain ⟨result, c'⟩ := r
  subst hr
  exact h

end Ends

/-! ## Two runs -/

/-- Two runs end alike if both succeed, with results and contexts that `post` relates, or both fail,
    with failures that `fail` relates. -/
def EndAlike (post : α → β → Context → Context → Prop) (fail : Unresolved → Unresolved → Prop) :
    Except Unresolved α × Context → Except Unresolved β × Context → Prop
  | (.ok a, c), (.ok b, d) => post a b c d
  | (.error e, _), (.error e', _) => fail e e'
  | _, _ => False

section EndAlike

variable {mid : α → β → Context → Context → Prop} {post : α' → β' → Context → Context → Prop}
  {fail : Unresolved → Unresolved → Prop} {x : Lower α} {y : Lower β} {f : α → Lower α'}
  {g : β → Lower β'} {c d : Context}

/-- `EndAlike` of `x >>= f` and `y >>= g`: the first parts end alike, and so do the second parts from
    wherever they end. -/
theorem EndAlike.bind (hx : EndAlike mid fail (x.exec c) (y.exec d))
    (hf : ∀ a b c' d', mid a b c' d' → EndAlike post fail ((f a).exec c') ((g b).exec d')) :
    EndAlike post fail ((x >>= f).exec c) ((y >>= g).exec d) := by
  -- Either both first parts succeed or both fail; `hx` rules the mixed cases out.
  rw [exec_bind, exec_bind]
  match hc : x.exec c, hd : y.exec d with
  | (.ok a, c'), (.ok b, d') => rw [hc, hd] at hx; exact hf a b c' d' hx
  | (.error e, c'), (.error e', d') => rw [hc, hd] at hx; exact hx
  | (.ok a, c'), (.error e', d') => rw [hc, hd] at hx; exact hx.elim
  | (.error e, c'), (.ok b, d') => rw [hc, hd] at hx; exact hx.elim

/-- `EndAlike` of a run with itself. -/
theorem endAlike_self (x : Lower α) (c : Context) :
    EndAlike (fun a b c₁ c₂ => a = b ∧ c₁ = c₂ ∧ x.exec c = (.ok a, c₁)) Eq (x.exec c)
      (x.exec c) := by
  match x.exec c with
  | (.ok _, _) => exact ⟨rfl, rfl, rfl⟩
  | (.error _, _) => exact rfl

/-- `EndAlike` is monotone in `post`. -/
theorem EndAlike.imp {post₁ post₂ : α → β → Context → Context → Prop}
    {r : Except Unresolved α × Context} {s : Except Unresolved β × Context}
    (h : EndAlike post₁ fail r s) (hpost : ∀ a b c d, post₁ a b c d → post₂ a b c d) :
    EndAlike post₂ fail r s := by
  match r, s, h with
  | (.ok _, _), (.ok _, _), h => exact hpost _ _ _ _ h
  | (.error _, _), (.error _, _), h => exact h

/-- `EndAlike` is transitive where `fail` is equality, if `hpost` composes what holds of the two
    successes. -/
theorem EndAlike.trans {post₁ post₂ post : α → α → Context → Context → Prop}
    {r₁ r₂ r₃ : Except Unresolved α × Context} (h₁ : EndAlike post₁ Eq r₁ r₂)
    (h₂ : EndAlike post₂ Eq r₂ r₃)
    (hpost : ∀ a b e c c₁ c₂, post₁ a b c c₁ → post₂ b e c₁ c₂ → post a e c c₂) :
    EndAlike post Eq r₁ r₃ := by
  match r₁, r₂, r₃, h₁, h₂ with
  | (.ok _, _), (.ok _, _), (.ok _, _), h₁, h₂ => exact hpost _ _ _ _ _ _ h₁ h₂
  | (.error _, _), (.error _, _), (.error _, _), h₁, h₂ => exact Eq.trans h₁ h₂

/-- `EndAlike` with what `Ends` says of the first run. -/
theorem EndAlike.and_left {post : α → β → Context → Context → Prop} {post' : α → Context → Prop}
    {fail' : Unresolved → Context → Prop} {r : Except Unresolved α × Context}
    {r' : Except Unresolved β × Context} (h : EndAlike post fail r r') (h' : Ends post' fail' r) :
    EndAlike (fun a b c d => post a b c d ∧ post' a c) fail r r' := by
  match r, r', h, h' with
  | (.ok _, _), (.ok _, _), h, h' => exact ⟨h, h'⟩
  | (.error _, _), (.error _, _), h, _ => exact h

/-- `EndAlike` with what `Ends` says of the second run. -/
theorem EndAlike.and_right {post : α → β → Context → Context → Prop} {post' : β → Context → Prop}
    {fail' : Unresolved → Context → Prop} {r : Except Unresolved α × Context}
    {r' : Except Unresolved β × Context} (h : EndAlike post fail r r') (h' : Ends post' fail' r') :
    EndAlike (fun a b c d => post a b c d ∧ post' b d) fail r r' := by
  match r, r', h, h' with
  | (.ok _, _), (.ok _, _), h, h' => exact ⟨h, h'⟩
  | (.error _, _), (.error _, _), h, _ => exact h

/-- `EndAlike` with a second run that succeeds: so does the first. -/
theorem EndAlike.of_right_ok {post : α → β → Context → Context → Prop}
    {r : Except Unresolved α × Context} {b : β} (h : EndAlike post fail r (.ok b, d)) :
    ∃ a c, r = (.ok a, c) ∧ post a b c d := by
  obtain ⟨_ | a, c⟩ := r
  · exact h.elim
  · exact ⟨a, c, rfl, h⟩

/-- `EndAlike` with a second run that fails: the first fails with the same error. -/
theorem EndAlike.of_right_error {post : α → β → Context → Context → Prop}
    {r : Except Unresolved α × Context} {s : Except Unresolved β × Context} {e : Unresolved}
    (h : EndAlike post Eq r s) (hs : s.1 = .error e) : r.1 = .error e := by
  obtain ⟨result, d⟩ := s
  subst hs
  obtain ⟨e' | a, c⟩ := r
  · exact congrArg Except.error h
  · exact h.elim

/-- `EndAlike` of two computations that branch on the same condition. -/
theorem endAlike_ite {post : α → β → Context → Context → Prop} {b : Bool} {x₁ x₂ : Lower α}
    {y₁ y₂ : Lower β} (ht : b = true → EndAlike post fail (x₁.exec c) (y₁.exec d))
    (hf : b = false → EndAlike post fail (x₂.exec c) (y₂.exec d)) :
    EndAlike post fail ((if b then x₁ else x₂).exec c) ((if b then y₁ else y₂).exec d) := by
  cases b with
  | true => exact ht rfl
  | false => exact hf rfl

end EndAlike

/-! ## Calls -/

/-- `node` of a call that a macro sees as structure: its callee and its arguments are delivered to the
    macro. -/
theorem exec_call_structure {pos : Nat} {callee : Node} {args : List Node} {c : Context}
    (h : c.scope.hasBindings (.call pos callee args)) (k : NameKind) :
    (node .tagged k (.call pos callee args)).exec c =
      (do
        let head ← node .tagged (Node.definitionKind args) callee
        let args ← arguments .tagged args
        return .app (head.tagged .call) (Term.list args) : Lower Term).exec c := by
  rw [node, exec_get_bind]
  simp [h]

/-- The condition of `node` for structure is false unless the call is tagged and has bindings. -/
theorem structure_eq_false {d : Delivery} {s : Scope} {n : Node}
    (h : d = .tagged → s.hasBindings n = false) : (decide (d = .tagged) && s.hasBindings n) = false := by
  by_cases hd : d = .tagged
  · rw [h hd, Bool.and_false]
  · simp [hd]

/-- `node` of any other call: the queue is kept aside while the callee and the arguments are lowered.
    -/
theorem exec_call_ordinary {d : Delivery} {pos : Nat} {callee : Node} {args : List Node}
    {c : Context} (h : d = .tagged → c.scope.hasBindings (.call pos callee args) = false)
    (k : NameKind) :
    (node d k (.call pos callee args)).exec c =
      (do
        let fn ← node .plain (Node.definitionKind args) callee
        noteIf (c.scope.isMacro callee) (.macroCall callee.pos args.length)
        let values ← arguments (if c.scope.isMacro callee then .tagged else .plain) args
        modify (·.restorePending c.pending)
        return d.value (fn.appAll (if args.isEmpty then [.reserved .nil] else values)) :
          Lower Term).exec { c with pending := [] } := by
  rw [node, exec_get_bind]
  simp only [structure_eq_false h, Bool.false_eq_true, if_false]
  rw [exec_modifyGet_bind]
  rfl

/-- A call is lowered as in `exec_call_structure` or as in `exec_call_ordinary`. -/
theorem structure_or_ordinary (d : Delivery) (s : Scope) (n : Node) :
    (d = .tagged ∧ s.hasBindings n) ∨ (d = .tagged → s.hasBindings n = false) := by
  cases h : s.hasBindings n with
  | false => exact .inr fun _ => rfl
  | true => cases d <;> simp

/-- `arguments` gives one term for each node. By induction on the nodes. -/
theorem arguments_length (d : Delivery) (ns : List Node) (c : Context) :
    Ends (fun ts _ => ts.length = ns.length) (fun _ _ => True) ((arguments d ns).exec c) := by
  induction ns generalizing c with
  | nil =>
    rw [arguments]
    exact rfl
  | cons n rest ih =>
    rw [arguments]
    refine (ends_true _).bind fun t c₁ _ => (ih c₁).bind ?_
    intro ts c₂ hts
    exact congrArg (· + 1) hts

/-! ## Blocks as items -/

/-- The items a block lowers: those it has, or the atom `Nil`. -/
def itemsOrNil : List Node → List Node
  | [] => [.atom 0 Reserved.nil.name]
  | item :: rest => item :: rest

theorem itemsOrNil_ne_nil (ns : List Node) : itemsOrNil ns ≠ [] := by
  cases ns <;> simp [itemsOrNil]

/-- `items` gives one step for each node. By induction on the nodes. -/
theorem items_length (ns : List Node) (c : Context) :
    Ends (fun r _ => r.1.length = ns.length) (fun _ _ => True) ((items ns).exec c) := by
  induction ns generalizing c with
  | nil =>
    rw [items]
    exact rfl
  | cons n rest ih =>
    rw [items, exec_modifyGet_bind]
    refine (ends_true _).bind fun t c₁ _ => (ih c₁).bind ?_
    intro r c₂ hr
    exact congrArg (· + 1) hr

/-- A block has at least one step, since `itemsOrNil` is not empty. -/
theorem ne_nil_of_length_itemsOrNil {ns : List Node} {steps : List BlockStep}
    (h : steps.length = (itemsOrNil ns).length) : steps ≠ [] := by
  intro hnil
  rw [hnil] at h
  exact itemsOrNil_ne_nil ns (List.length_eq_zero_iff.1 h.symm)

/-- The first step of `items` opens what was queued before the block. -/
theorem items_cons_head (n : Node) (rest : List Node) (c : Context) :
    Ends (fun r _ => ∃ t steps, r.1 = ⟨c.pending.length, t⟩ :: steps) (fun _ _ => True)
      ((items (n :: rest)).exec c) := by
  rw [items, exec_modifyGet_bind]
  refine (ends_true _).bind fun t c₁ _ => (ends_true _).bind ?_
  intro r c₂ _
  exact ⟨t, r.1, by rw [Context.openScope_fst]⟩

/-- `block` is `items` of `itemsOrNil` and then `closeBlock`, with or without items. -/
theorem block_eq (ns : List Node) :
    block ns = (do
      let c ← get
      let (steps, deferred) ← items (itemsOrNil ns)
      closeBlock c.scope.depth steps deferred) := by
  cases ns with
  | nil => simp [block, itemsOrNil, items, node, Delivery.value, Reserved.literal]
  | cons item rest => simp [block, itemsOrNil, items]

/-- The context that is left when a block ends. -/
def closed (c : Context) (depth : Nat) (steps : List BlockStep) (deferred : List Pending) : Context :=
  ((c.note (.blockDone (steps.map BlockStep.opened))).setPending deferred).truncate depth

/-! ## Induction -/

/-- Induction along lowering. A call may use the statements about its callee and its arguments for
    every delivery, since whether it is structure or an ordinary call depends on the scope. -/
theorem induct (N : Delivery → NameKind → Node → Prop) (A : Delivery → List Node → Prop)
    (I : List Node → Prop)
    (var : ∀ d k pos name, N d k (.var pos name))
    (atom : ∀ d k pos name, N d k (.atom pos name))
    (text : ∀ d k pos content, N d k (.text pos content))
    (binding : ∀ d k pos level consume name, N d k (.binding pos level consume name))
    (block : ∀ d k pos ns, I (itemsOrNil ns) → N d k (.block pos ns))
    (call : ∀ d k pos callee args, (∀ d k, N d k callee) → (∀ d, A d args) →
      N d k (.call pos callee args))
    (noArguments : ∀ d, A d [])
    (argument : ∀ d arg rest, N d .ordinary arg → A d rest → A d (arg :: rest))
    (noItems : I [])
    (item : ∀ n rest, N .plain .ordinary n → I rest → I (n :: rest)) :
    (∀ d k n, N d k n) ∧ (∀ d ns, A d ns) ∧ ∀ ns, I ns := by
  have orNil : ∀ ns, I ns → I (itemsOrNil ns)
    | [], _ => item _ _ (atom _ _ _ _) noItems
    | _ :: _, h => h
  -- Over the tree, a list of nodes has to carry both statements: it may stand in a call or a block.
  have node : ∀ n d k, N d k n :=
    @Node.rec (fun n => ∀ d k, N d k n) (fun ns => (∀ d, A d ns) ∧ I ns)
      (fun pos name d k => var d k pos name)
      (fun pos name d k => atom d k pos name)
      (fun pos content d k => text d k pos content)
      (fun pos level consume name d k => binding d k pos level consume name)
      (fun pos ns ih d k => block d k pos ns (orNil ns ih.2))
      (fun pos callee args ihCallee ihArgs d k => call d k pos callee args ihCallee ihArgs.1)
      ⟨noArguments, noItems⟩
      (fun n rest ih ihRest => ⟨fun d => argument d n rest (ih d .ordinary) (ihRest.1 d),
        item n rest (ih .plain .ordinary) ihRest.2⟩)
  refine ⟨fun d k n => node n d k, fun d ns => ?_, fun ns => ?_⟩
  · -- Lists as arguments and lists as items, from the statement about nodes.
    induction ns with
    | nil => exact noArguments d
    | cons n rest ih => exact argument d n rest (node n d .ordinary) ih
  · induction ns with
    | nil => exact noItems
    | cons n rest ih => exact item n rest (node n .plain .ordinary) ih

/-- Induction over nodes and the arguments of calls, for statements that do not look into blocks. It
    is `induct` with nothing said of items, and serves statements that name their own deliveries. -/
theorem induct_arguments (N : NameKind → Node → Prop) (A : List Node → Prop)
    (var : ∀ k pos name, N k (.var pos name))
    (atom : ∀ k pos name, N k (.atom pos name))
    (text : ∀ k pos content, N k (.text pos content))
    (binding : ∀ k pos level consume name, N k (.binding pos level consume name))
    (block : ∀ k pos ns, N k (.block pos ns))
    (call : ∀ k pos callee args, (∀ k, N k callee) → A args → N k (.call pos callee args))
    (noArguments : A [])
    (argument : ∀ arg rest, N .ordinary arg → A rest → A (arg :: rest)) :
    (∀ k n, N k n) ∧ ∀ ns, A ns := by
  obtain ⟨hnode, harguments, -⟩ := induct (fun _ => N) (fun _ => A) (fun _ => True)
    (fun _ => var) (fun _ => atom) (fun _ => text) (fun _ => binding)
    (fun _ k pos ns _ => block k pos ns)
    (fun _ k pos callee args hcallee hargs => call k pos callee args (hcallee .plain) (hargs .plain))
    (fun _ => noArguments) (fun _ => argument) trivial (fun _ _ _ _ => trivial)
  exact ⟨hnode .plain, harguments .plain⟩

end Lower

/-! ## Programs -/

namespace Node

/-- The context that the items of a file are lowered from. -/
def start (settings : Settings) (file : Nat) (items : List Node) : Context :=
  (Context.initial settings).note (.lowering items.length file)

/-- The program of `lowerAll` is what `block` makes of the items, with the literals met on the way. -/
theorem lowerAll_fst (settings : Settings) (file : Nat) (items : List Node) :
    (lowerAll settings file items).1 =
      let r := (Lower.block items).exec (start settings file items)
      r.1.map fun t => ⟨t, r.2.literals.toList⟩ := rfl

/-- `lowerAll` gives `p` if and only if `block` gives the term of `p` and leaves the literals of `p`
    behind. -/
theorem lowerAll_eq_ok_iff {settings : Settings} {file : Nat} {items : List Node} {p : Program} :
    (lowerAll settings file items).1 = .ok p ↔
      ∃ c, (Lower.block items).exec (start settings file items) = (.ok p.term, c) ∧
        p.literals = c.literals.toList := by
  obtain ⟨term, literals⟩ := p
  rw [lowerAll_fst]
  -- Both sides speak of one run; its result decides.
  match (Lower.block items).exec (start settings file items) with
  | (.ok t, c) =>
    simp only [Except.map, Except.ok.injEq, Program.mk.injEq, Prod.mk.injEq]
    constructor
    · intro h
      obtain ⟨ht, hl⟩ := h
      exact ⟨c, ⟨ht, rfl⟩, hl.symm⟩
    · intro h
      obtain ⟨c', ⟨ht, hc⟩, hl⟩ := h
      exact ⟨ht, by rw [hl, hc]⟩
  | (.error e, c) => simp [Except.map]

end Node

end Unsugar
