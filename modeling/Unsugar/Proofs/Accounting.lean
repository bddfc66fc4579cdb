import Mathlib
import Unsugar.Proofs.Session

/-!
# How often a binding is opened

A binding of level `k` is opened by a scope, leaves a copy of level `k - 1` for the scope around, and so
on until level 1. Between the scopes its copies are passed around: in the queue, among what a block
defers, in what a call puts aside. None of them is ever in two places, so that a binding is opened at
most once at each of its levels.

`Pending.copies` lists all that a binding may be opened as. What is opened in a run and what may still be
opened of its queue at the end are together no more than the copies of what was queued at the start and
of the bindings in the tree. Opening a scope and deferring the copies leaves that balance as it is, and
all else lets something fall at most. So no account is needed of where the copies are while a run goes
on, and the balance also holds of a run that fails half-way.

## Key results

- `Pending.owed_shadows`: what a scope opens and what it defers make up what was queued
- `Lower.node_accounted`, `Lower.block_accounted`: the balance of a run
- `Lower.items_deferred`: a block leaves the copies of what its own items opened, in order
- `opened_accounted`: single requests
-/

namespace Unsugar

/-! ## Copies -/

namespace Pending

/-- What a binding is opened as: itself first, then the copies it leaves, down to level 1. -/
def copies (b : Pending) : List Pending :=
  (List.range (max 1 b.level)).map fun i => { b with level := b.level - i }

/-- `copies` of a binding of level `k` are `max 1 k`. -/
@[simp] theorem length_copies (b : Pending) : b.copies.length = max 1 b.level := by
  simp [copies]

/-- `copies` by `shadow?`: the binding itself and then the copies of what it leaves. -/
theorem copies_eq (b : Pending) : b.copies = [b] ++ b.shadow?.toList.flatMap copies := by
  obtain ⟨level, consume, name, kind⟩ := b
  -- Levels 0 and 1 leave nothing; a higher one leaves the next lower.
  rcases level with _ | _ | k
  · rfl
  · rfl
  · simp [copies, shadow?, List.range_succ_eq_map, Function.comp_def]

/-- How many copies of a queue are a given one. -/
def owed (p : Pending) (queue : List Pending) : Nat := (queue.flatMap copies).count p

variable (p : Pending) (x : String)

@[simp] theorem owed_nil : owed p [] = 0 := rfl

@[simp] theorem owed_append (queue queue' : List Pending) :
    owed p (queue ++ queue') = owed p queue + owed p queue' := by
  simp [owed]

/-- `owed` across `openScope`: what a scope opens and what it defers make up what was queued. By
    induction on the queue. -/
theorem owed_shadows (queue : List Pending) :
    queue.count p + owed p (queue.filterMap Pending.shadow?) = owed p queue := by
  induction queue with
  | nil => rfl
  | cons b rest ih =>
    have hcount : (b :: rest).count p = [b].count p + rest.count p := by
      rw [← List.count_append, List.singleton_append]
    have hshadows : (b :: rest).filterMap Pending.shadow? =
        b.shadow?.toList ++ rest.filterMap Pending.shadow? := by
      cases h : b.shadow? <;> simp [h]
    -- The first binding counts once for itself, and then for the copies of its own copy.
    have howed : owed p (b :: rest) = [b].count p + owed p b.shadow?.toList + owed p rest := by
      rw [owed, List.flatMap_cons, copies_eq, List.count_append, List.count_append]
      rfl
    rw [hcount, hshadows, owed_append, howed]
    omega

/-- How often the bindings of a name in a queue may be opened. -/
def allowance (queue : List Pending) : Nat :=
  ((queue.filter (·.name = x)).map fun b => max 1 b.level).sum

/-- `copies` of a queue with a given name are as many as `allowance` says. -/
theorem countP_copies (queue : List Pending) :
    (queue.flatMap copies).countP (·.name = x) = allowance x queue := by
  induction queue with
  | nil => rfl
  | cons b rest ih =>
    have hb : b.copies.countP (·.name = x) = if b.name = x then max 1 b.level else 0 := by
      by_cases hx : b.name = x <;> simp [copies, List.countP_map, Function.comp_def, hx]
    rw [List.flatMap_cons, List.countP_append, ih, hb, allowance, allowance]
    by_cases hx : b.name = x <;> simp [hx]

/-- `openedEntries` has an entry of a name for each binding of that name in the queue. -/
theorem countP_openedEntries (queue : List Pending) :
    (openedEntries queue).countP (·.name? = some x) = queue.countP (·.name = x) := by
  cases queue with
  | nil => rfl
  | cons b rest =>
    rw [openedEntries, if_neg (by simp), List.countP_reverse, List.countP_map]
    simp [Function.comp_def, entry, ScopeEntry.named]

end Pending

/-! ## Bindings in a tree -/

namespace Node

mutual

/-- The bindings in a node, as they are queued if the node introduces a name of the given kind. -/
def bindings (kind : NameKind) : Node → List Pending
  | .var .. | .atom .. | .text .. => []
  | .binding _ level consume name => [⟨level, consume, name, kind⟩]
  | .block _ items => bindingsAll items
  | .call _ callee args => callee.bindings (definitionKind args) ++ bindingsAll args

/-- The bindings in several nodes. -/
def bindingsAll : List Node → List Pending
  | [] => []
  | n :: rest => n.bindings .ordinary ++ bindingsAll rest

end

end Node

/-- `itemsOrNil` adds no bindings: the atom `Nil` has none. -/
@[simp] theorem Lower.bindingsAll_itemsOrNil (ns : List Node) :
    Node.bindingsAll (itemsOrNil ns) = Node.bindingsAll ns := by
  cases ns with
  | nil => simp [itemsOrNil, Node.bindingsAll, Node.bindings]
  | cons n rest => rfl

/-- The bindings in what is asked for. -/
def Request.bindings : Request → List Pending
  | .value n | .wrapped n => n.bindings .ordinary
  | .block items => Node.bindingsAll items

/-! ## Balances -/

/-- The name that an event reports to be opened. -/
def Event.openedName? : Event → Option String
  | .opened name => some name
  | _ => none

/-- The events of `openScope` report the queue binding by binding. -/
theorem Event.filterMap_openedName? (queue : List Pending) :
    (queue.map fun b => Event.opened b.name).reverse.filterMap openedName? =
      (queue.map Pending.name).reverse := by
  rw [List.filterMap_reverse, List.filterMap_map]
  simp [Function.comp_def, openedName?]

/-- The events that report `x` are as many as the opened bindings of that name. -/
theorem Event.count_opened (x : String) {reported : List Event} {opened : List Pending}
    (h : reported.filterMap openedName? = (opened.map Pending.name).reverse) :
    reported.count (.opened x) = opened.countP (·.name = x) := by
  -- Events of other kinds count on neither side.
  have hnames (events : List Event) :
      events.count (.opened x) = (events.filterMap openedName?).count x := by
    induction events with
    | nil => rfl
    | cons e rest ih =>
      cases e with
      | opened y => by_cases hy : y = x <;> simp [openedName?, ih, hy]
      | _ => rw [List.count_cons_of_ne (by simp), ih, List.filterMap_cons_none rfl]
  rw [hnames, h, List.count_reverse, List.count, List.countP_map]
  rfl

namespace Context

/-- From `c` to `c'` bindings are opened, and reported in that order. They and the copies of the queue
    at the end are no more than the copies of the queue at the start and of the bindings granted. -/
def Accounted (granted : List Pending) (c c' : Context) : Prop :=
  ∃ (reported : List Event) (opened : List Pending),
    c'.events = reported ++ c.events ∧
      reported.filterMap Event.openedName? = (opened.map Pending.name).reverse ∧
      ∀ p, opened.count p + Pending.owed p c'.pending ≤
        Pending.owed p c.pending + Pending.owed p granted

variable {c c' c₁ c₂ : Context} {granted granted₁ granted₂ : List Pending}

/-- `Accounted` composes, and what is granted adds up. -/
theorem Accounted.trans (h₁ : Accounted granted₁ c c₁) (h₂ : Accounted granted₂ c₁ c₂) :
    Accounted (granted₁ ++ granted₂) c c₂ := by
  obtain ⟨reported₁, opened₁, hevents₁, hnames₁, hcount₁⟩ := h₁
  obtain ⟨reported₂, opened₂, hevents₂, hnames₂, hcount₂⟩ := h₂
  refine ⟨reported₂ ++ reported₁, opened₁ ++ opened₂, ?_, ?_, fun p => ?_⟩
  · -- events are newest first, so the second part comes in front
    rw [hevents₂, hevents₁, List.append_assoc]
  · rw [List.filterMap_append, hnames₁, hnames₂, List.map_append, List.reverse_append]
  · -- the queue in between cancels out
    have := hcount₁ p
    have := hcount₂ p
    rw [List.count_append, Pending.owed_append]
    omega

/-- `Accounted` of a change that opens nothing, and whose queue is covered by what it is granted. -/
theorem accounted_of_owed_le (hevents : c'.events = c.events)
    (howed : ∀ p, Pending.owed p c'.pending ≤ Pending.owed p c.pending + Pending.owed p granted) :
    Accounted granted c c' :=
  ⟨[], [], hevents, rfl, fun p => by simpa using howed p⟩

theorem Accounted.refl (c : Context) : Accounted [] c c :=
  accounted_of_owed_le rfl fun _ => Nat.le_refl _

/-- `Accounted` is monotone in what is granted. -/
theorem Accounted.grant (h : Accounted granted₁ c c') (granted₂ : List Pending) :
    Accounted (granted₁ ++ granted₂) c c' :=
  h.trans (accounted_of_owed_le rfl fun _ => Nat.le_add_right _ _)

/-- `note` of an event that opens nothing leaves the balance as it is. -/
theorem accounted_note (c : Context) {e : Event} (he : e.openedName? = none) :
    Accounted [] c (c.note e) :=
  ⟨[e], [], rfl, by simp [he], fun p => by simp [note]⟩

/-- `record` is granted the binding that it queues. -/
theorem accounted_record (c : Context) (b : Pending) : Accounted [b] c (c.record b).2 := by
  have hnoted : Accounted [] c (c.note (.queued b.name b.level b.kind)) := c.accounted_note rfl
  refine hnoted.trans (accounted_of_owed_le rfl fun p => ?_)
  show Pending.owed p (c.pending ++ [b]) ≤ Pending.owed p c.pending + Pending.owed p [b]
  rw [Pending.owed_append]

/-- `restorePending` is like being granted the bindings that are put back. -/
theorem accounted_restorePending (c : Context) (saved : List Pending) :
    Accounted saved c (c.restorePending saved) := by
  refine accounted_of_owed_le rfl fun p => ?_
  rw [restorePending, Pending.owed_append]
  omega

/-- `openScope` is balanced even when the copies that it leaves are queued at once
    (`Pending.owed_shadows`). -/
theorem accounted_openScope (c : Context) :
    Accounted [] c (c.openScope.2.restorePending (c.pending.filterMap Pending.shadow?)) := by
  rw [openScope_eq]
  refine ⟨(c.pending.map fun b => Event.opened b.name).reverse, c.pending, rfl, ?_, fun p => ?_⟩
  · exact Event.filterMap_openedName? c.pending
  · have := Pending.owed_shadows p c.pending
    simp only [restorePending, Pending.owed_append, Pending.owed_nil]
    omega

/-- `Accounted` is kept when the same bindings are put into both queues. -/
theorem Accounted.restorePending (h : Accounted granted c c') (saved : List Pending) :
    Accounted granted (c.restorePending saved) (c'.restorePending saved) := by
  obtain ⟨reported, opened, hevents, hnames, hcount⟩ := h
  refine ⟨reported, opened, hevents, hnames, fun p => ?_⟩
  have := hcount p
  simp only [Context.restorePending, Pending.owed_append]
  omega

/-- `Accounted` is kept when bindings are taken out of the queue at the end. -/
theorem Accounted.forget {saved : List Pending}
    (h : Accounted granted c (c'.restorePending saved)) : Accounted granted c c' := by
  obtain ⟨reported, opened, hevents, hnames, hcount⟩ := h
  refine ⟨reported, opened, hevents, hnames, fun p => ?_⟩
  have := hcount p
  simp only [Context.restorePending, Pending.owed_append] at this
  omega

/-- `closed` queues what was deferred and drops the queue of the last item, so the balance can only
    fall. -/
theorem Accounted.closed {deferred : List Pending} (depth : Nat) (steps : List BlockStep)
    (h : Accounted granted c (c'.restorePending deferred)) :
    Accounted granted c (Lower.closed c' depth steps deferred) := by
  -- Closing reports the end of the block, which opens nothing.
  have hend : Accounted [] (c'.restorePending deferred) (Lower.closed c' depth steps deferred) := by
    refine ⟨[.blockDone (steps.map BlockStep.opened)], [], rfl, rfl, fun p => ?_⟩
    show 0 + Pending.owed p deferred ≤ Pending.owed p (deferred ++ c'.pending) + 0
    rw [Pending.owed_append]
    omega
  have hall := h.trans hend
  rwa [List.append_nil] at hall

end Context

namespace Lower

variable {α β : Type} {granted granted₁ granted₂ : List Pending}

/-- A run from `c` that is accounted for, whether it succeeds or fails. -/
def Accounted (granted : List Pending) (c : Context) (r : Except Unresolved α × Context) : Prop :=
  Ends (fun _ c' => c.Accounted granted c') (fun _ c' => c.Accounted granted c') r

/-- `Accounted` of a run is `Context.Accounted` of its last context, whether or not the run succeeds.
    -/
theorem Accounted.after {c : Context} {r : Except Unresolved α × Context}
    (h : Accounted granted c r) : c.Accounted granted r.2 := by
  match r, h with
  | (.ok _, _), h => exact h
  | (.error _, _), h => exact h

/-- `Accounted` of `m >>= f`: what is granted to the parts adds up; if `m` fails, the rest is not used.
    -/
theorem Accounted.bind {c : Context} {m : Lower α} {f : α → Lower β}
    (hm : Accounted granted₁ c (m.exec c)) (hf : ∀ a c₁, Accounted granted₂ c₁ ((f a).exec c₁)) :
    Accounted (granted₁ ++ granted₂) c ((m >>= f).exec c) := by
  refine Ends.bind (hm.imp (fun _ _ h => h) fun _ _ h => h.grant _) ?_
  intro a c₁ h
  exact (hf a c₁).imp (fun _ _ h₁ => h.trans h₁) fun _ _ h₁ => h.trans h₁

theorem accounted_pure (a : α) (c : Context) : Accounted [] c ((pure a : Lower α).exec c) :=
  Context.Accounted.refl c

/-- `Accounted` of `m` with its result mapped: nothing more is granted. -/
theorem Accounted.map {c : Context} {m : Lower α} (hm : Accounted granted c (m.exec c))
    (g : α → β) : Accounted granted c ((m >>= fun a => pure (g a)).exec c) := by
  have hall := hm.bind fun a c₁ => accounted_pure (g a) c₁
  rwa [List.append_nil] at hall

/-! ## Leaves -/

/-- `literal` touches neither the queue nor the events. -/
theorem literal_accounted (l : Literal) (c : Context) : Accounted [] c ((literal l).exec c) :=
  Context.accounted_of_owed_le rfl fun _ => Nat.le_refl _

/-- `queue` is granted the binding that it queues. -/
theorem queue_accounted (b : Pending) (c : Context) : Accounted [b] c ((queue b).exec c) :=
  c.accounted_record b

/-- `name` opens nothing and leaves the queue as it is, in each of its cases. -/
theorem name_accounted (span : Span) (y : String) (c : Context) :
    Accounted [] c ((name span y).exec c) := by
  rw [name, exec_get_bind]
  split
  · -- a name in scope
    exact accounted_pure _ c
  · split
    · -- a built-in name, which is reported
      exact c.accounted_note rfl
    · split
      · -- an effect
        exact Context.accounted_of_owed_le rfl fun _ => Nat.le_refl _
      · -- an unresolved name
        exact Context.Accounted.refl c

/-- `noteIf` of an event that opens nothing. -/
theorem noteIf_accounted (condition : Bool) {e : Event} (he : e.openedName? = none) (c : Context) :
    Accounted [] c ((noteIf condition e).exec c) := by
  cases condition with
  | false => exact accounted_pure _ c
  | true => exact c.accounted_note he

/-! ## Calls and blocks -/

/-- A node is accounted for by the bindings in it. -/
abbrev NodeAccounted (d : Delivery) (k : NameKind) (n : Node) : Prop :=
  ∀ c, Accounted (n.bindings k) c ((node d k n).exec c)

/-- `arguments` are accounted for by the bindings in them. -/
abbrev ArgumentsAccounted (d : Delivery) (ns : List Node) : Prop :=
  ∀ c, Accounted (Node.bindingsAll ns) c ((arguments d ns).exec c)

/-- `items` are accounted for with what they defer, since it is queued once the block ends. -/
abbrev ItemsAccounted (ns : List Node) : Prop :=
  ∀ c, Ends (fun r c' => c.Accounted (Node.bindingsAll ns) (c'.restorePending r.2))
    (fun _ c' => c.Accounted (Node.bindingsAll ns) c') ((items ns).exec c)

/-- `node` of a call is accounted for by the bindings of its callee and of its arguments. -/
theorem call_accounted (d : Delivery) (k : NameKind) (pos : Nat) (callee : Node) (args : List Node)
    (hcallee : ∀ d k, NodeAccounted d k callee) (hargs : ∀ d, ArgumentsAccounted d args) :
    NodeAccounted d k (.call pos callee args) := by
  intro c
  rw [Node.bindings]
  rcases structure_or_ordinary d c.scope (.call pos callee args) with ⟨rfl, h⟩ | h
  · -- structure: one queue all the way
    rw [exec_call_structure h]
    exact (hcallee _ _ c).bind fun head c₁ => (hargs _ c₁).map _
  · -- ordinary: the queue is put aside, and put back after the arguments
    rw [exec_call_ordinary h]
    let empty : Context := { c with pending := [] }
    -- What is put back was put aside before, so it is not granted twice.
    have hback {c' : Context} (hrun : empty.Accounted (callee.bindings (Node.definitionKind args) ++
        ([] ++ (Node.bindingsAll args ++ c.pending))) c') :
        c.Accounted (callee.bindings (Node.definitionKind args) ++ Node.bindingsAll args) c' := by
      obtain ⟨reported, opened, hevents, hnames, hcount⟩ := hrun
      refine ⟨reported, opened, hevents, hnames, fun p => ?_⟩
      have := hcount p
      simp only [empty, Pending.owed_append, Pending.owed_nil] at this ⊢
      omega
    refine Ends.imp ?_ (fun _ _ => hback) fun _ _ => hback
    refine Accounted.bind (hcallee _ _ empty) fun fn c₁ => ?_
    refine (noteIf_accounted _ rfl c₁).bind fun _ c₁ => ?_
    exact (hargs _ c₁).bind fun values c₂ => c₂.accounted_restorePending c.pending

/-- `items` of one more item: the copies that its scope leaves wait beside the queue of what follows.
    -/
theorem items_cons_accounted (n : Node) (rest : List Node) (hn : NodeAccounted .plain .ordinary n)
    (hrest : ItemsAccounted rest) : ItemsAccounted (n :: rest) := by
  intro c
  rw [items, exec_modifyGet_bind, Context.openScope_fst, Node.bindingsAll]
  let shadows := c.pending.filterMap Pending.shadow?
  have hopened := c.accounted_openScope
  -- The copies wait beside the queue until the block ends, and are forgotten if it fails.
  refine Ends.bind ((hn _).imp (fun _ _ h => hopened.trans (h.restorePending shadows)) ?_) ?_
  · -- the item fails
    intro e c₁ h
    exact (hopened.trans (h.restorePending shadows)).forget.grant _
  · intro t c₁ h₁
    refine Ends.bind ((hrest c₁).imp (fun _ _ h => h₁.trans (h.restorePending shadows)) ?_) ?_
    · -- the rest fails
      intro e c₂ h₂
      exact (h₁.trans (h₂.restorePending shadows)).forget
    · intro r c₂ h₂
      -- At the end both parts of what is deferred are queued together.
      have hboth : (c₂.restorePending r.2).restorePending shadows =
          c₂.restorePending (shadows ++ r.2) := by
        simp only [Context.restorePending, List.append_assoc]
      rw [hboth] at h₂
      exact h₂

/-- `block` is accounted for if its items are: `closed` queues what they deferred. -/
theorem block_accounted_of_items (ns : List Node) (h : ItemsAccounted (itemsOrNil ns)) (c : Context) :
    Accounted (Node.bindingsAll ns) c ((block ns).exec c) := by
  rw [block_eq, exec_get_bind]
  rw [ItemsAccounted, bindingsAll_itemsOrNil] at h
  refine (h c).bind ?_
  intro r c₁ hr
  exact hr.closed c.scope.depth r.1

/-- All of lowering is accounted for: `node`, `arguments` and `items`, by `Lower.induct`. -/
private theorem accounted_all :
    (∀ d k n, NodeAccounted d k n) ∧ (∀ d ns, ArgumentsAccounted d ns) ∧ ∀ ns, ItemsAccounted ns := by
  refine induct NodeAccounted ArgumentsAccounted ItemsAccounted ?_ ?_ ?_ ?_ ?_ call_accounted ?_ ?_ ?_
    items_cons_accounted
  · -- var
    intro d k pos y c
    rw [node, Node.bindings]
    exact (name_accounted _ y c).map _
  · -- atom
    intro d k pos y c
    rw [node, Node.bindings]
    exact (literal_accounted _ c).map _
  · -- text
    intro d k pos content c
    rw [node, Node.bindings]
    exact (literal_accounted _ c).map _
  · -- binding
    intro d k pos level consume y c
    rw [node, Node.bindings]
    exact (queue_accounted _ c).map _
  · -- block
    intro d k pos ns ih c
    rw [node, Node.bindings]
    exact block_accounted_of_items ns ih c
  · -- no arguments
    intro d c
    rw [arguments, Node.bindingsAll]
    exact accounted_pure _ c
  · -- an argument and the rest
    intro d arg rest harg hrest c
    rw [arguments, Node.bindingsAll]
    exact (harg c).bind fun t c₁ => (hrest c₁).map _
  · -- no items
    intro c
    rw [items]
    exact Context.Accounted.refl c

/-- `node` is accounted for by the bindings in the node. -/
theorem node_accounted (d : Delivery) (k : NameKind) (n : Node) (c : Context) :
    Accounted (n.bindings k) c ((node d k n).exec c) :=
  accounted_all.1 d k n c

/-- `block` is accounted for by the bindings in its items. -/
theorem block_accounted (ns : List Node) (c : Context) :
    Accounted (Node.bindingsAll ns) c ((block ns).exec c) :=
  block_accounted_of_items ns (accounted_all.2.2 _) c

/-! ## What a block defers -/

/-- The bindings that items open between them, in the order in which they are opened. -/
def openedByItems : Context → List Node → List Pending
  | _, [] => []
  | c, n :: rest =>
    c.openScope.1 ++
      match (value n).exec c.openScope.2 with
      | (.ok _, c') => openedByItems c' rest
      | (.error _, _) => []

/-- `items` defer the copies of what they opened, in order. By induction on the items. -/
theorem items_deferred (ns : List Node) (c : Context) :
    Ends (fun r _ => r.2 = (openedByItems c ns).filterMap Pending.shadow?) (fun _ _ => True)
      ((items ns).exec c) := by
  induction ns generalizing c with
  | nil =>
    rw [items]
    exact rfl
  | cons n rest ih =>
    rw [items, exec_modifyGet_bind, openedByItems, exec_bind]
    have hvalue : (value n).exec c.openScope.2 = (node .plain .ordinary n).exec c.openScope.2 := rfl
    rw [hvalue]
    rcases (node .plain .ordinary n).exec c.openScope.2 with ⟨e | t, c₁⟩
    · -- the item fails, and nothing is said of it
      trivial
    · refine (ih c₁).bind ?_
      intro r c₂ hr
      rw [ends_pure, List.filterMap_append, hr]

/-- After `block` the queue holds the copies of what its own items opened, in order. -/
theorem block_pending (ns : List Node) (c : Context) :
    Ends (fun _ c' => c'.pending = (openedByItems c (itemsOrNil ns)).filterMap Pending.shadow?)
      (fun _ _ => True) ((block ns).exec c) := by
  rw [block_eq, exec_get_bind]
  refine (items_deferred _ c).bind ?_
  intro r c₁ hr
  exact hr

end Lower

/-- A request is accounted for by the bindings in it, whichever of the three it is. -/
theorem Request.accounted (r : Request) (c : Context) : c.Accounted r.bindings (r.after c) := by
  cases r with
  | value n => exact (Lower.node_accounted .plain .ordinary n c).after
  | wrapped n => exact (Lower.node_accounted .tagged .ordinary n c).after
  | block items => exact (Lower.block_accounted items c).after

/-- `shadow?` over a queue: the bindings of a higher level, each one level lower. -/
theorem Pending.filterMap_shadow?_eq (queue : List Pending) :
    queue.filterMap Pending.shadow? =
      (queue.filter (1 < ·.level)).map fun b => { b with level := b.level - 1 } := by
  induction queue with
  | nil => rfl
  | cons b rest ih =>
    by_cases h : 1 < b.level <;> simp [Pending.shadow?, h, ih]

/-- Openings are accounted for. `openScope` reports one opening of a name for each entry of that name
    that it adds. In a request, whether it succeeds or fails, what is opened and the `copies` of the
    queue at the end are among the copies of the queue at the start and of the bindings in the request,
    none of them taken twice; and a binding of level `k` has `max 1 k` copies, so it is opened no more
    often. Counted for one name, the openings and the `allowance` at the end are at most the allowance
    of the queue at the start and of the bindings in the request. After a `block` that succeeds the
    queue holds exactly the copies, one level lower and in order, of the bindings of a higher level
    that its own items opened. -/
theorem opened_accounted :
    (∀ (c : Context) (x : String), ∃ entries reported,
      c.openScope.2.scope.entries = entries ++ c.scope.entries ∧
        c.openScope.2.events = reported ++ c.events ∧
        reported.count (.opened x) = entries.countP (·.name? = some x)) ∧
    (∀ (c : Context) (r : Request), ∃ (reported : List Event) (opened : List Pending),
      (r.after c).events = reported ++ c.events ∧
        reported.filterMap Event.openedName? = (opened.map Pending.name).reverse ∧
        (opened ++ (r.after c).pending.flatMap Pending.copies).Subperm
          ((c.pending ++ r.bindings).flatMap Pending.copies) ∧
        ∀ x : String,
          reported.count (.opened x) + Pending.allowance x (r.after c).pending ≤
            Pending.allowance x c.pending + Pending.allowance x r.bindings) ∧
    (∀ b : Pending, b.copies.length = max 1 b.level) ∧
    ∀ (c : Context) (items : List Node) (t : Term) (c' : Context),
      (Lower.block items).exec c = (.ok t, c') →
        c'.pending = ((Lower.openedByItems c (Lower.itemsOrNil items)).filter (1 < ·.level)).map
          fun b => { b with level := b.level - 1 } := by
  refine ⟨?_, ?_, Pending.length_copies, ?_⟩
  · -- one scope
    intro c x
    refine ⟨Pending.openedEntries c.pending, (c.pending.map fun b => Event.opened b.name).reverse,
      by rw [Context.scope_openScope], by rw [Context.openScope_eq], ?_⟩
    rw [Pending.countP_openedEntries, Event.count_opened x (Event.filterMap_openedName? c.pending)]
  · -- a request: counts of every single copy give a sub-permutation, and counts by name follow from it
    intro c r
    obtain ⟨reported, opened, hevents, hnames, hcount⟩ := r.accounted c
    have hsubperm : (opened ++ (r.after c).pending.flatMap Pending.copies).Subperm
        ((c.pending ++ r.bindings).flatMap Pending.copies) := by
      rw [List.subperm_ext_iff]
      intro p _
      have := hcount p
      simpa [Pending.owed] using this
    refine ⟨reported, opened, hevents, hnames, hsubperm, fun x => ?_⟩
    have hle := hsubperm.countP_le (·.name = x)
    rw [List.countP_append, List.flatMap_append, List.countP_append, Pending.countP_copies,
      Pending.countP_copies, Pending.countP_copies] at hle
    rw [Event.count_opened x hnames]
    exact hle
  · -- the queue after a block
    intro c items t c' h
    rw [← Pending.filterMap_shadow?_eq]
    exact (Lower.block_pending items c).of_ok h

/-- A binding of level three is opened in a block and again after it, and one copy of it is left beside
    that of a binding which was queued before. -/
theorem opened_accounted_three_levels :
    let c := (Context.initial ⟨[(.ordinary, "f")], "!"⟩).setPending [⟨2, .scope, "s", .ordinary⟩]
    let items : List Node := [
      .block 0 [.callNamed 0 "f" [.bindLevel 0 3 "r", .var 0 "s"], .var 0 "r"],
      .callNamed 0 "f" [.var 0 "r", .bindLevel 0 2 "z"]]
    let t := Term.abs (.app (.abs (.app (.app (.app (.var 2) (.lit 4)) (.var 1)) (.abs (.var 0))))
      (.abs (.app (.app (.var 2) (.var 0)) (.lit 5))))
    ((Lower.block items).exec c).1 = .ok t ∧
      ((Lower.block items).exec c).2.pending =
        [⟨1, .scope, "s", .ordinary⟩, ⟨1, .scope, "r", .ordinary⟩] ∧
      ∃ reported, ((Request.block items).after c).events = reported ++ c.events ∧
        reported.count (.opened "r") ≤ 2 := by
  intro c items t
  obtain ⟨-, hopenings, -, hpending⟩ := opened_accounted
  have hterm : ((Lower.block items).exec c).1 = .ok t := by cbv
  have hrun : (Lower.block items).exec c = (.ok t, ((Lower.block items).exec c).2) := by
    rw [← hterm]
  -- What the items opened, at the level it was opened at: each leaves a copy one level lower.
  have hopened : Lower.openedByItems c (Lower.itemsOrNil items) =
      [⟨2, .scope, "s", .ordinary⟩, ⟨2, .scope, "r", .ordinary⟩] := by cbv
  have hqueue : ((Lower.block items).exec c).2.pending =
      [⟨1, .scope, "s", .ordinary⟩, ⟨1, .scope, "r", .ordinary⟩] := by
    rw [hpending c items t _ hrun, hopened]
    rfl
  -- The binding of level 3 grants three openings, one of which is left in the queue.
  have hleft : Pending.allowance "r" [⟨1, .scope, "s", .ordinary⟩, ⟨1, .scope, "r", .ordinary⟩] = 1 := by
    cbv
  have hqueued : Pending.allowance "r" c.pending = 0 := by cbv
  have hgranted : Pending.allowance "r" (Request.block items).bindings = 3 := by cbv
  obtain ⟨reported, opened, hreported, -, -, haccount⟩ := hopenings c (.block items)
  have hafter : (Request.block items).after c = ((Lower.block items).exec c).2 := rfl
  have hname := haccount "r"
  rw [hafter, hqueue, hleft, hqueued, hgranted] at hname
  exact ⟨hterm, hqueue, reported, hreported, by omega⟩

end Unsugar
