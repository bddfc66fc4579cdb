import Mathlib
import Unsugar.Proofs.Run

/-!
# What lowering does not look at

The position of a node, the level of a binding that reaches one scope at most, and what a binding is
meant to be consumed by are carried along: a queued binding has the last two, and copies of it take
them on to other scopes. None of it is ever observed, with one exception. A definition, that is a call
whose callee is a binding, is a macro if one of its arguments is a binding meant for a block.

So two programs that differ in nothing else become the same program, or fail at the same name. In the
contexts of the two runs everything is equal but the events and these two parts of queued bindings.

## Key results

- `Node.Alike`: nodes that differ only in what is not looked at
- `Scope.hasBindings_alike`, `Node.definitionKind_alike`: what is decided before a call is lowered
- `Context.Alike`: contexts of two such runs, and what each operation on them keeps
- `Lower.block_indifferent`: alike blocks in alike contexts
- `lowerAll_alike`: whole programs
-/

namespace Unsugar

/-- Levels that no scope tells apart: a binding that reaches at most one scope leaves no copy. -/
def SameReach (level level' : Nat) : Prop := level = level' ∨ level ≤ 1 ∧ level' ≤ 1

/-! ## Trees -/

namespace Node

/-- Whether a node is a binding. -/
def isBinding : Node → Bool
  | .binding .. => true
  | _ => false

mutual

/-- Two nodes of one shape with the same names and texts. A binding may differ in its level, as long as
    it reaches one scope at most, and in its consumer, unless it is an argument of a definition
    (`parameter`). Positions may differ everywhere. -/
inductive Alike : (parameter : Bool) → Node → Node → Prop where
  | var {parameter : Bool} {pos pos' : Nat} {name : String} :
      Alike parameter (.var pos name) (.var pos' name)
  | atom {parameter : Bool} {pos pos' : Nat} {name : String} :
      Alike parameter (.atom pos name) (.atom pos' name)
  | text {parameter : Bool} {pos pos' : Nat} {content : String} :
      Alike parameter (.text pos content) (.text pos' content)
  | binding {parameter : Bool} {pos pos' level level' : Nat} {consume consume' : Consume}
      {name : String} (hlevel : SameReach level level')
      (hconsume : parameter = true → consume = consume') :
      Alike parameter (.binding pos level consume name) (.binding pos' level' consume' name)
  | block {parameter : Bool} {pos pos' : Nat} {items items' : List Node}
      (hitems : AllAlike false items items') : Alike parameter (.block pos items) (.block pos' items')
  | call {parameter : Bool} {pos pos' : Nat} {callee callee' : Node} {args args' : List Node}
      (hcallee : Alike false callee callee') (hargs : AllAlike callee.isBinding args args') :
      Alike parameter (.call pos callee args) (.call pos' callee' args')

/-- Several nodes that are alike one by one. -/
inductive AllAlike : (parameter : Bool) → List Node → List Node → Prop where
  | nil {parameter : Bool} : AllAlike parameter [] []
  | cons {parameter : Bool} {n n' : Node} {rest rest' : List Node} (h : Alike parameter n n')
      (hrest : AllAlike parameter rest rest') : AllAlike parameter (n :: rest) (n' :: rest')

end

variable {parameter : Bool} {n n' : Node} {ns ns' : List Node}

theorem Alike.isBinding_eq (h : Alike parameter n n') : n'.isBinding = n.isBinding := by
  cases h <;> rfl

theorem AllAlike.isEmpty_eq (h : AllAlike parameter ns ns') : ns'.isEmpty = ns.isEmpty := by
  cases h <;> rfl

/-- `definitionKind` of alike parameters: they are meant for the same consumers, so they make a macro
    or not. -/
theorem definitionKind_alike (h : AllAlike true ns ns') :
    definitionKind ns' = definitionKind ns := by
  -- `parameter` is `true` here, so the consumers are the same.
  have hparameter {n n' : Node} (h : Alike true n n') : n'.isBlockBinding = n.isBlockBinding := by
    cases h with
    | @binding _ _ _ _ _ consume _ _ _ hconsume =>
      obtain rfl := hconsume rfl
      cases consume <;> rfl
    | _ => rfl
  have hany : ns'.any isBlockBinding = ns.any isBlockBinding := by
    induction ns generalizing ns' with
    | nil =>
      cases h
      rfl
    | cons n rest ih =>
      cases h with
      | cons hn hrest => rw [List.any_cons, List.any_cons, hparameter hn, ih hrest]
  rw [definitionKind, definitionKind, hany]

end Node

namespace Scope

/-- `isMacro` of nodes that are alike: it looks at the name only. -/
theorem isMacro_alike (s : Scope) {parameter : Bool} {n n' : Node} (h : Node.Alike parameter n n') :
    s.isMacro n' = s.isMacro n := by
  cases h <;> rfl

mutual

/-- `hasBindings` of nodes that are alike: a macro sees the same structure. By recursion on the node.
    -/
theorem hasBindings_alike (s : Scope) {parameter : Bool} :
    (n : Node) → {n' : Node} → Node.Alike parameter n n' → s.hasBindings n' = s.hasBindings n
  | .var .., _, h | .atom .., _, h | .text .., _, h | .binding .., _, h | .block .., _, h => by
    cases h
    simp only [hasBindings]
  | .call pos callee args, _, h => by
    cases h with
    | call hcallee hargs =>
      rw [hasBindings, hasBindings, s.isMacro_alike hcallee, hasBindings_alike s callee hcallee,
        anyHasBindings_alike s args hargs]

/-- `anyHasBindings` of lists that are alike. -/
theorem anyHasBindings_alike (s : Scope) {parameter : Bool} :
    (ns : List Node) → {ns' : List Node} → Node.AllAlike parameter ns ns' →
      s.anyHasBindings ns' = s.anyHasBindings ns
  | [], _, h => by
    cases h
    rfl
  | n :: rest, _, h => by
    cases h with
    | cons hn hrest =>
      rw [anyHasBindings, anyHasBindings, hasBindings_alike s n hn, anyHasBindings_alike s rest hrest]

end

end Scope

/-! ## Contexts -/

/-- Queued bindings of the same name and kind whose levels no scope tells apart. -/
structure Pending.Alike (b b' : Pending) : Prop where
  name : b.name = b'.name
  kind : b.kind = b'.kind
  level : SameReach b.level b'.level

/-- Queues of the same names and kinds in the same order. -/
abbrev Pending.QueuesAlike (queue queue' : List Pending) : Prop :=
  List.Forall₂ Pending.Alike queue queue'

namespace Pending

theorem Alike.entry_eq {b b' : Pending} (h : b.Alike b') : b.entry = b'.entry := by
  rw [entry, entry, h.name, h.kind]

/-- `shadow?` of bindings that are alike: both leave a copy or neither does, and the copies are alike
    again. -/
theorem Alike.shadow? {b b' : Pending} (h : b.Alike b') : Option.Rel Alike b.shadow? b'.shadow? := by
  unfold Pending.shadow?
  rcases h.level with hlevel | ⟨hlevel, hlevel'⟩
  · -- the same level
    rw [hlevel]
    split
    · exact .some ⟨h.name, h.kind, .inl rfl⟩
    · exact .none
  · -- both reach one scope at most
    rw [if_neg (by omega), if_neg (by omega)]
    exact .none

variable {queue queue' : List Pending}

theorem QueuesAlike.shadows (h : QueuesAlike queue queue') :
    QueuesAlike (queue.filterMap Pending.shadow?) (queue'.filterMap Pending.shadow?) :=
  List.rel_filterMap (fun _ _ hb => hb.shadow?) h

/-- `openedEntries` of queues that are alike: entries have names and kinds only. -/
theorem QueuesAlike.openedEntries_eq (h : QueuesAlike queue queue') :
    openedEntries queue = openedEntries queue' := by
  have hmap : queue.map Pending.entry = queue'.map Pending.entry := by
    induction h with
    | nil => rfl
    | cons hb _ ih => rw [List.map_cons, List.map_cons, hb.entry_eq, ih]
  have hempty : queue.isEmpty = queue'.isEmpty := by
    cases h <;> rfl
  rw [openedEntries, openedEntries, hmap, hempty]

end Pending

/-- Contexts that differ in their events and in what is not looked at of queued bindings. -/
structure Context.Alike (c d : Context) : Prop where
  scope : c.scope = d.scope
  pending : Pending.QueuesAlike c.pending d.pending
  literals : c.literals = d.literals
  effectSuffix : c.effectSuffix = d.effectSuffix

namespace Context.Alike

variable {c d : Context}

theorem isEffect_eq (h : c.Alike d) (x : String) : c.isEffect x = d.isEffect x := by
  rw [isEffect, isEffect, h.effectSuffix]

/-- Contexts stay alike whatever is reported in them. -/
theorem events (h : c.Alike d) (es es' : List Event) :
    Context.Alike { c with events := es } { d with events := es' } :=
  ⟨h.scope, h.pending, h.literals, h.effectSuffix⟩

/-- Contexts stay alike with queues that are alike. -/
theorem pendings (h : c.Alike d) {queue queue' : List Pending}
    (hqueue : Pending.QueuesAlike queue queue') :
    Context.Alike { c with pending := queue } { d with pending := queue' } :=
  ⟨h.scope, hqueue, h.literals, h.effectSuffix⟩

/-- `Context.intern` in contexts that are alike: the same place, and contexts that are alike. -/
theorem intern (h : c.Alike d) (l : Literal) :
    (c.intern l).1 = (d.intern l).1 ∧ (c.intern l).2.Alike (d.intern l).2 := by
  refine ⟨?_, h.scope, h.pending, ?_, h.effectSuffix⟩
  · show (c.literals.intern l).1 = (d.literals.intern l).1
    rw [h.literals]
  · show (c.literals.intern l).2 = (d.literals.intern l).2
    rw [h.literals]

/-- `Context.record` of bindings that are alike. -/
theorem record (h : c.Alike d) {b b' : Pending} (hb : b.Alike b') :
    (c.record b).1 = (d.record b').1 ∧ (c.record b).2.Alike (d.record b').2 := by
  have hqueue : Pending.QueuesAlike (c.pending ++ [b]) (d.pending ++ [b']) :=
    List.rel_append h.pending (.cons hb .nil)
  rw [Context.record, Context.record, hb.name]
  exact ((h.events _ _).pendings hqueue).intern (.atom b'.name)

/-- `Context.openScope` in contexts that are alike: the queues that it gives are alike, and so are the
    contexts. -/
theorem openScope (h : c.Alike d) :
    Pending.QueuesAlike c.openScope.1 d.openScope.1 ∧ c.openScope.2.Alike d.openScope.2 := by
  rw [openScope_eq, openScope_eq]
  refine ⟨h.pending, ?_, .nil, h.literals, h.effectSuffix⟩
  show Scope.mk _ = Scope.mk _
  rw [h.pending.openedEntries_eq, h.scope]

theorem truncate (h : c.Alike d) (depth : Nat) : (c.truncate depth).Alike (d.truncate depth) := by
  refine ⟨?_, h.pending, h.literals, h.effectSuffix⟩
  show c.scope.truncate depth = d.scope.truncate depth
  rw [h.scope]

end Context.Alike

/-! ## Runs side by side -/

namespace Lower

variable {α β α' β' : Type}

/-- Two computations end alike in contexts that are alike: with results that `R` relates, in contexts
    that are again alike, or with failures at the same name. -/
def Indifferent (R : α → β → Prop) (x : Lower α) (y : Lower β) : Prop :=
  ∀ c d, c.Alike d →
    EndAlike (fun a b c' d' => R a b ∧ c'.Alike d') (fun e e' => e.name = e'.name) (x.exec c) (y.exec d)

theorem indifferent_pure {R : α → β → Prop} {a : α} {b : β} (hab : R a b) :
    Indifferent R (pure a) (pure b) :=
  fun _ _ h => ⟨hab, h⟩

/-- `>>=` keeps `Indifferent`: the second parts are indifferent for results that `R` relates. -/
theorem Indifferent.bind {R : α → β → Prop} {R' : α' → β' → Prop} {x : Lower α} {y : Lower β}
    {f : α → Lower α'} {g : β → Lower β'} (hx : Indifferent R x y)
    (hf : ∀ a b, R a b → Indifferent R' (f a) (g b)) : Indifferent R' (x >>= f) (y >>= g) := by
  intro c d h
  refine (hx c d h).bind ?_
  intro a b c' d' hmid
  obtain ⟨hab, h'⟩ := hmid
  exact hf a b hab c' d' h'

/-- `Indifferent.bind` for results that are the same. -/
theorem Indifferent.bind_eq {R' : α' → β' → Prop} {x y : Lower α} {f : α → Lower α'}
    {g : α → Lower β'} (hx : Indifferent Eq x y) (hf : ∀ a, Indifferent R' (f a) (g a)) :
    Indifferent R' (x >>= f) (y >>= g) := by
  refine hx.bind ?_
  intro a b hab
  subst hab
  exact hf a

/-- `modifyGet` of functions that give related values and keep contexts alike. -/
theorem indifferent_modifyGet {R : α → β → Prop} {f : Context → α × Context}
    {g : Context → β × Context}
    (h : ∀ c d, c.Alike d → R (f c).1 (g d).1 ∧ (f c).2.Alike (g d).2) :
    Indifferent R (modifyGet f) (modifyGet g) :=
  fun c d hcd => h c d hcd

/-- `modify` of functions that keep contexts alike. -/
theorem indifferent_modify {f g : Context → Context} (h : ∀ c d, c.Alike d → (f c).Alike (g d)) :
    Indifferent Eq (modify f) (modify g) :=
  fun c d hcd => ⟨rfl, h c d hcd⟩

/-! ## Single steps -/

theorem note_indifferent (e e' : Event) : Indifferent Eq (note e) (note e') :=
  indifferent_modify fun _ _ h => h.events _ _

/-- `noteIf` of any two events under one condition. -/
theorem noteIf_indifferent (condition : Bool) (e e' : Event) :
    Indifferent Eq (noteIf condition e) (noteIf condition e') := by
  cases condition with
  | false => exact indifferent_pure rfl
  | true => exact note_indifferent e e'

theorem intern_indifferent (l : Literal) :
    Indifferent Eq (modifyGet (·.intern l)) (modifyGet (·.intern l)) :=
  indifferent_modifyGet fun _ _ h => h.intern l

theorem literal_indifferent (l : Literal) : Indifferent Eq (literal l) (literal l) :=
  (intern_indifferent l).bind_eq fun _ => indifferent_pure rfl

/-- `queue` of bindings that are alike. -/
theorem queue_indifferent {b b' : Pending} (hb : b.Alike b') :
    Indifferent Eq (queue b) (queue b') :=
  (indifferent_modifyGet fun _ _ h => h.record hb).bind_eq fun _ => indifferent_pure rfl

/-- `name` at any two spans: the span is only reported in a failure. -/
theorem name_indifferent (span span' : Span) (x : String) :
    Indifferent Eq (name span x) (name span' x) := by
  intro c d h
  rw [name, name, exec_get_bind, exec_get_bind, h.scope, h.isEffect_eq]
  -- The cases of `name` are decided by what the contexts have in common.
  cases d.scope.resolve? x with
  | some i => exact ⟨rfl, h⟩
  | none =>
    cases Builtin.ofName? x with
    | some b =>
      have hbuiltin := (note_indifferent (.builtinUsed x b.arity) (.builtinUsed x b.arity)).bind_eq
        fun _ => indifferent_pure (show b.term = b.term from rfl)
      exact hbuiltin c d h
    | none =>
      have heffect := (intern_indifferent (.atom x)).bind_eq
        fun i => indifferent_pure (show Term.effect i = .effect i from rfl)
      exact endAlike_ite (fun _ => heffect c d h) (fun _ => rfl)

/-- `closeBlock` with queues that are alike. -/
theorem closeBlock_indifferent (depth : Nat) (steps : List BlockStep) {deferred deferred' : List Pending}
    (h : Pending.QueuesAlike deferred deferred') :
    Indifferent Eq (closeBlock depth steps deferred) (closeBlock depth steps deferred') := by
  have hclose : Indifferent Eq (modify fun c => (c.setPending deferred).truncate depth)
      (modify fun c => (c.setPending deferred').truncate depth) :=
    indifferent_modify fun _ _ hcd => (hcd.pendings h).truncate depth
  exact (note_indifferent _ _).bind_eq fun _ => hclose.bind_eq fun _ => indifferent_pure rfl

/-! ## All of lowering -/

/-- `node` of alike nodes, parameters or not. -/
abbrev NodeIndifferent (d : Delivery) (k : NameKind) (n : Node) : Prop :=
  ∀ parameter n', Node.Alike parameter n n' → Indifferent Eq (node d k n) (node d k n')

/-- `arguments` of alike nodes. -/
abbrev ArgumentsIndifferent (d : Delivery) (ns : List Node) : Prop :=
  ∀ parameter ns', Node.AllAlike parameter ns ns' → Indifferent Eq (arguments d ns) (arguments d ns')

/-- The steps of alike items are the same, and they defer queues that are alike. -/
def SameSteps (r r' : List BlockStep × List Pending) : Prop :=
  r.1 = r'.1 ∧ Pending.QueuesAlike r.2 r'.2

/-- `items` of alike nodes. -/
abbrev ItemsIndifferent (ns : List Node) : Prop :=
  ∀ parameter ns', Node.AllAlike parameter ns ns' → Indifferent SameSteps (items ns) (items ns')

/-- `node` looks at the kind that is handed down only if it is given a binding. -/
theorem node_kind_eq {n : Node} (hn : n.isBinding = false) (d : Delivery) (k k' : NameKind) :
    node d k n = node d k' n := by
  cases n with
  | binding => cases hn
  | _ => rw [node, node]

/-- `node` of a callee with `definitionKind` of alike arguments: a binding gets the same kind, and any
    other callee is what it is whatever the kind. -/
theorem node_definitionKind_eq {callee : Node} {args args' : List Node}
    (h : Node.AllAlike callee.isBinding args args') (d : Delivery) :
    node d (Node.definitionKind args') callee = node d (Node.definitionKind args) callee := by
  cases hbinding : callee.isBinding with
  | true =>
    rw [hbinding] at h
    rw [Node.definitionKind_alike h]
  | false => exact node_kind_eq hbinding d _ _

/-- `node` of alike calls: the callee, the arguments and the queue that is put aside are alike. -/
theorem call_indifferent (d : Delivery) (k : NameKind) (pos : Nat) (callee : Node) (args : List Node)
    (hcallee : ∀ d k, NodeIndifferent d k callee) (hargs : ∀ d, ArgumentsIndifferent d args) :
    NodeIndifferent d k (.call pos callee args) := by
  intro parameter n' halike c₁ c₂ hc
  have hbindings := c₂.scope.hasBindings_alike (.call pos callee args) halike
  cases halike with
  | @call _ _ pos' _ callee' _ args' hcalleeAlike hargsAlike =>
    have hkind (d : Delivery) : Indifferent Eq (node d (Node.definitionKind args) callee)
        (node d (Node.definitionKind args') callee') := by
      have hparameters : Node.AllAlike callee'.isBinding args args' := by
        rw [hcalleeAlike.isBinding_eq]
        exact hargsAlike
      rw [node_definitionKind_eq hparameters]
      exact hcallee d _ false callee' hcalleeAlike
    have hvalues (d : Delivery) : Indifferent Eq (arguments d args) (arguments d args') :=
      hargs d _ args' hargsAlike
    have hsaved : Indifferent Pending.QueuesAlike (modifyGet Context.takePending)
        (modifyGet Context.takePending) :=
      indifferent_modifyGet fun _ _ h => ⟨h.pending, h.pendings .nil⟩
    have hrestored {saved saved' : List Pending} (h : Pending.QueuesAlike saved saved') :
        Indifferent Eq (modify (·.restorePending saved)) (modify (·.restorePending saved')) :=
      indifferent_modify fun _ _ hcd => hcd.pendings (List.rel_append h hcd.pending)
    -- The scopes are the same, so both runs take the same branch.
    rw [node, node, exec_get_bind, exec_get_bind]
    dsimp only
    rw [hc.scope, hbindings, c₂.scope.isMacro_alike hcalleeAlike, hargsAlike.isEmpty_eq]
    refine endAlike_ite (fun _ => ?_) (fun _ => ?_)
    · -- structure
      refine ((hkind _).bind_eq fun head => (hvalues _).bind_eq fun ts => ?_) c₁ c₂ hc
      exact indifferent_pure rfl
    · -- ordinary
      refine (hsaved.bind fun saved saved' h => (hkind _).bind_eq fun fn => ?_) c₁ c₂ hc
      refine (noteIf_indifferent _ _ _).bind_eq fun _ => (hvalues _).bind_eq fun values => ?_
      exact (hrestored h).bind_eq fun _ => indifferent_pure rfl

/-- `items` of one more item: what its scope opens is alike, so the counts are the same. -/
theorem items_cons_indifferent (n : Node) (rest : List Node)
    (hn : NodeIndifferent .plain .ordinary n) (hrest : ItemsIndifferent rest) :
    ItemsIndifferent (n :: rest) := by
  intro parameter ns' halike
  cases halike with
  | cons hnAlike hrestAlike =>
    rw [items, items]
    refine (indifferent_modifyGet fun _ _ h => h.openScope).bind fun opened opened' hopened => ?_
    refine (hn _ _ hnAlike).bind_eq fun t => ?_
    refine (hrest _ _ hrestAlike).bind fun r r' hr => ?_
    obtain ⟨hsteps, hdeferred⟩ := hr
    refine indifferent_pure ⟨?_, List.rel_append hopened.shadows hdeferred⟩
    rw [hopened.length_eq, hsteps]

/-- `itemsOrNil` of lists that are alike. -/
theorem itemsOrNil_alike {ns ns' : List Node} {parameter : Bool} (h : Node.AllAlike parameter ns ns') :
    Node.AllAlike parameter (itemsOrNil ns) (itemsOrNil ns') := by
  cases h with
  | nil => exact .cons .atom .nil
  | cons hn hrest => exact .cons hn hrest

/-- `block` is indifferent if its items are. -/
theorem block_indifferent_of_items {ns ns' : List Node} {parameter : Bool}
    (h : ItemsIndifferent (itemsOrNil ns)) (halike : Node.AllAlike parameter ns ns') :
    Indifferent Eq (block ns) (block ns') := by
  intro c d hcd
  rw [block_eq, block_eq, exec_get_bind, exec_get_bind, hcd.scope]
  refine ((h _ _ (itemsOrNil_alike halike)).bind fun r r' hr => ?_) c d hcd
  obtain ⟨hsteps, hdeferred⟩ := hr
  dsimp only
  rw [hsteps]
  exact closeBlock_indifferent _ _ hdeferred

/-- All of lowering is indifferent: `node`, `arguments` and `items`, by `Lower.induct`. -/
private theorem indifferent_all :
    (∀ d k n, NodeIndifferent d k n) ∧ (∀ d ns, ArgumentsIndifferent d ns) ∧
      ∀ ns, ItemsIndifferent ns := by
  refine induct NodeIndifferent ArgumentsIndifferent ItemsIndifferent ?_ ?_ ?_ ?_ ?_ call_indifferent
    ?_ ?_ ?_ items_cons_indifferent
  · -- var
    intro d k pos x parameter n' halike
    cases halike
    rw [node, node]
    exact (name_indifferent _ _ x).bind_eq fun _ => indifferent_pure rfl
  · -- atom
    intro d k pos x parameter n' halike
    cases halike
    rw [node, node]
    exact (literal_indifferent _).bind_eq fun _ => indifferent_pure rfl
  · -- text
    intro d k pos content parameter n' halike
    cases halike
    rw [node, node]
    exact (literal_indifferent _).bind_eq fun _ => indifferent_pure rfl
  · -- binding
    intro d k pos level consume x parameter n' halike
    cases halike with
    | @binding _ _ _ _ level' _ consume' _ hlevel _ =>
      have hqueued : Pending.Alike ⟨level, consume, x, k⟩ ⟨level', consume', x, k⟩ :=
        ⟨rfl, rfl, hlevel⟩
      rw [node, node]
      exact (queue_indifferent hqueued).bind_eq fun _ => indifferent_pure rfl
  · -- block
    intro d k pos ns ih parameter n' halike
    cases halike with
    | block hitems =>
      rw [node, node]
      exact block_indifferent_of_items ih hitems
  · -- no arguments
    intro d parameter ns' halike
    cases halike
    rw [arguments]
    exact indifferent_pure rfl
  · -- an argument and the rest
    intro d arg rest harg hrest parameter ns' halike
    cases halike with
    | cons hargAlike hrestAlike =>
      rw [arguments, arguments]
      refine (harg _ _ hargAlike).bind_eq fun t => (hrest _ _ hrestAlike).bind_eq fun ts => ?_
      exact indifferent_pure rfl
  · -- no items
    intro parameter ns' halike
    cases halike
    rw [items]
    exact indifferent_pure ⟨rfl, .nil⟩

theorem block_indifferent {ns ns' : List Node} {parameter : Bool}
    (h : Node.AllAlike parameter ns ns') : Indifferent Eq (block ns) (block ns') :=
  block_indifferent_of_items (indifferent_all.2.2 _) h

end Lower

/-- `lowerAll` does not observe irrelevant syntax. Let two programs be `AllAlike`: they differ only in
    positions, in the levels of bindings that reach one scope at most, and in the consumers of bindings
    that are not arguments of a definition. Under the same settings they become the same term over the
    same literals, or both fail at the same name. -/
theorem lowerAll_alike (settings : Settings) (file : Nat) (items items' : List Node)
    (h : Node.AllAlike false items items') :
    (∃ p : Program, (Node.lowerAll settings file items).1 = .ok p ∧
      (Node.lowerAll settings file items').1 = .ok p) ∨
    ∃ e e' : Unresolved, (Node.lowerAll settings file items).1 = .error e ∧
      (Node.lowerAll settings file items').1 = .error e' ∧ e.name = e'.name := by
  have hstart : (Node.start settings file items).Alike (Node.start settings file items') :=
    ⟨rfl, .nil, rfl, rfl⟩
  have hrun := Lower.block_indifferent h _ _ hstart
  rw [Node.lowerAll_fst, Node.lowerAll_fst]
  rcases hr : (Lower.block items).exec (Node.start settings file items) with ⟨e | t, c⟩ <;>
    rcases hs : (Lower.block items').exec (Node.start settings file items') with ⟨e' | t', d⟩ <;>
    rw [hr, hs] at hrun
  · -- both fail
    exact .inr ⟨e, e', rfl, rfl, hrun⟩
  · -- only one of them fails, against `hrun`
    exact hrun.elim
  · exact hrun.elim
  · -- both succeed
    obtain ⟨rfl, hcd⟩ := hrun
    refine .inl ⟨⟨t, c.literals.toList⟩, rfl, ?_⟩
    show Except.ok (Program.mk t d.literals.toList) = _
    rw [hcd.literals]

/-- A definition whose parameter makes it a macro, and a call of it. Its own name and the binding in the
    call may be meant for anything. -/
theorem lowerAll_alike_definition :
    let settings : Settings := ⟨[(.macroName, "let")], "!"⟩
    let items (pos level : Nat) (consume : Consume) : List Node := [
      .call pos (.var pos "let") [
        .call pos (.binding pos 2 consume "f") [.binding pos level .block "n"],
        .block pos [.var pos "n"]],
      .call pos (.var pos "f") [.binding pos level consume "y", .text pos "t"],
      .var pos "y"]
    let program : Program :=
      ⟨.abs (.app (.app (.app (.var 1)
          (.app (.app (.lit 3) (.app (.lit 2) (.lit 4))) (.app (.app (.lit 2) (.lit 5)) (.lit 0))))
          (.abs (.abs (.var 0))))
          (.abs (.app (.app (.app (.var 0) (.app (.lit 2) (.lit 6))) (.app (.lit 1) (.lit 7)))
            (.abs (.var 0))))),
        [.atom "Nil", .atom "Value", .atom "Binding", .atom "Call", .atom "f", .atom "n", .atom "y",
          .text "t"]⟩
    Node.AllAlike false (items 0 0 .scope) (items 5 1 .block) ∧
      (Node.lowerAll settings 0 (items 0 0 .scope)).1 = .ok program ∧
      (Node.lowerAll settings 0 (items 5 1 .block)).1 = .ok program := by
  intro settings items program
  -- Levels 0 and 1 reach equally far.
  have hreach : SameReach 0 1 := .inr (by decide)
  -- The consumer counts only at the parameter, where it decides the kind of `f`.
  have hdefinition : Node.Alike false (.call 0 (.binding 0 2 .scope "f") [.binding 0 0 .block "n"])
      (.call 5 (.binding 5 2 .block "f") [.binding 5 1 .block "n"]) :=
    .call (.binding (.inl rfl) (by simp)) (.cons (.binding hreach fun _ => rfl) .nil)
  have halike : Node.AllAlike false (items 0 0 .scope) (items 5 1 .block) :=
    .cons (.call .var (.cons hdefinition (.cons (.block (.cons .var .nil)) .nil)))
      (.cons (.call .var (.cons (.binding hreach (by simp [Node.isBinding])) (.cons .text .nil)))
        (.cons .var .nil))
  have hlower : (Node.lowerAll settings 0 (items 0 0 .scope)).1 = .ok program := by cbv
  refine ⟨halike, hlower, ?_⟩
  rcases lowerAll_alike settings 0 _ _ halike with ⟨p, hp, hp'⟩ | ⟨e, e', he, -⟩
  · rw [hlower, Except.ok.injEq] at hp
    rw [hp', hp]
  · rw [hlower] at he
    cases he

end Unsugar
