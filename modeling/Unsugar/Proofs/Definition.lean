import Mathlib
import Unsugar.Proofs.Accounting
import Unsugar.Proofs.Continuation
import Unsugar.Proofs.Lookup

/-!
# Recursive definitions

A definition such as `=(::f(:x, :y), { ... })` names itself by a binding of level two, its parameters by
bindings of level one, and is given its body as a block. The body opens all of them, the name outermost.
After it the parameters are gone, and of the name a copy is left, which is opened for the items that
follow. So the name is in scope both in the body and in what follows, and is of the same kind in both:
the kind goes with the binding through the queue, into the scope of the body and into the copy.

## Key results

- `Lower.exec_pattern`: a pattern queues its name and its parameters
- `Lower.openedByItems_eq_append`: items without bindings of a higher level open none
- `block_definition_opens`: a definition and what follows it
-/

namespace Unsugar

/-- A parameter of a definition: a binding that one scope opens. -/
structure Parameter where
  pos : Nat
  level : Nat
  consume : Consume
  name : String
  level_le : level ≤ 1

namespace Parameter

variable (p : Parameter)

/-- The binding that a parameter is written as. -/
def node : Node := .binding p.pos p.level p.consume p.name

/-- The binding that is queued for a parameter. -/
def pending : Pending := ⟨p.level, p.consume, p.name, .ordinary⟩

/-- The scope entry of a parameter, which is an ordinary name. -/
def entry : ScopeEntry := .named .ordinary p.name

end Parameter

/-- A definition of a name with parameters and a body, which is a block of at least one item and has no
    bindings of a higher level in it. -/
structure Definition where
  pos : Nat
  definerPos : Nat
  definer : String
  patternPos : Nat
  namePos : Nat
  consume : Consume
  name : String
  parameters : List Parameter
  bodyPos : Nat
  first : Node
  more : List Node
  level_le : ∀ b ∈ Node.bindingsAll (first :: more), b.level ≤ 1

namespace Definition

variable (D : Definition)

/-- The name that is called to define. -/
def definerNode : Node := .var D.definerPos D.definer

/-- The name that is defined, with its parameters. -/
def pattern : Node :=
  .call D.patternPos (.binding D.namePos 2 D.consume D.name) (D.parameters.map Parameter.node)

/-- The definition as an item of a block. -/
def item : Node :=
  .call D.pos D.definerNode [D.pattern, .block D.bodyPos (D.first :: D.more)]

/-- The kind of the name that is defined. -/
def kind : NameKind := Node.definitionKind (D.parameters.map Parameter.node)

/-- The scope entry of the name that is defined. -/
def entry : ScopeEntry := .named D.kind D.name

/-- `kind` is that of a macro if and only if one of the parameters is meant for a block. -/
theorem kind_eq_macroName_iff :
    D.kind = .macroName ↔ ∃ p ∈ D.parameters, p.consume = .block := by
  have hblock (p : Parameter) : p.node.isBlockBinding ↔ p.consume = .block := by
    cases h : p.consume <;> simp [Parameter.node, Node.isBlockBinding, h]
  simp [kind, Node.definitionKind, hblock]

end Definition

namespace Lower

/-! ## The pattern -/

/-- `node` of a parameter queues it, however it is delivered. -/
theorem exec_parameter (d : Delivery) (p : Parameter) (c : Context) :
    Ends (fun _ c' => c'.scope = c.scope ∧ c'.pending = c.pending ++ [p.pending]) (fun _ _ => True)
      ((node d .ordinary p.node).exec c) := by
  rw [Parameter.node, node]
  exact ⟨rfl, rfl⟩

/-- `arguments` of parameters queue them in order. By induction on the parameters. -/
theorem exec_parameters (d : Delivery) (ps : List Parameter) (c : Context) :
    Ends (fun _ c' => c'.scope = c.scope ∧ c'.pending = c.pending ++ ps.map Parameter.pending)
      (fun _ _ => True) ((arguments d (ps.map Parameter.node)).exec c) := by
  induction ps generalizing c with
  | nil =>
    simp only [List.map_nil, List.append_nil]
    rw [arguments]
    exact ⟨rfl, rfl⟩
  | cons p rest ih =>
    simp only [List.map_cons]
    rw [arguments]
    -- The parameter is queued behind what was there, and the rest behind it.
    refine (exec_parameter d p c).bind fun t c₁ hp => (ih c₁).bind ?_
    intro ts c₂ hrest
    refine ⟨hrest.1.trans hp.1, ?_⟩
    rw [hrest.2, hp.2, List.append_assoc, List.singleton_append]

/-- `node` of a pattern queues its name and then its parameters, whether a macro is given the pattern
    as structure or it is called like any value. -/
theorem exec_pattern (d : Delivery) (D : Definition) (c : Context) :
    Ends (fun _ c' => c'.scope = c.scope ∧ c'.pending =
        c.pending ++ ⟨2, D.consume, D.name, D.kind⟩ :: D.parameters.map Parameter.pending)
      (fun _ _ => True) ((node d .ordinary D.pattern).exec c) := by
  -- The callee of a pattern is the binding of its name, of the kind that its parameters decide.
  have hhead (d : Delivery) (c : Context) :
      Ends (fun _ c' => c'.scope = c.scope ∧
          c'.pending = c.pending ++ [⟨2, D.consume, D.name, D.kind⟩]) (fun _ _ => True)
        ((node d D.kind (.binding D.namePos 2 D.consume D.name)).exec c) := by
    rw [node]
    exact ⟨rfl, rfl⟩
  cases d with
  | tagged =>
    have hbindings : c.scope.hasBindings D.pattern := by
      simp [Definition.pattern, Scope.hasBindings, Scope.isMacro]
    rw [Definition.pattern, exec_call_structure hbindings]
    refine (hhead .tagged c).bind fun head c₁ hname => (exec_parameters .tagged _ c₁).bind ?_
    intro ts c₂ hparams
    refine ⟨hparams.1.trans hname.1, ?_⟩
    rw [hparams.2, hname.2, List.append_assoc, List.singleton_append]
  | plain =>
    have hplain : Delivery.plain = .tagged → c.scope.hasBindings D.pattern = false := by simp
    rw [Definition.pattern, exec_call_ordinary hplain]
    refine (hhead .plain _).bind fun head c₁ hname => ?_
    rw [exec_noteIf_bind]
    refine (exec_parameters _ _ _).bind ?_
    intro ts c₂ hparams
    rw [exec_modify_bind, ends_pure]
    refine ⟨hparams.1.trans hname.1, ?_⟩
    -- What was queued before comes back in front.
    rw [Context.restorePending, hparams.2, hname.2]
    simp

/-! ## Bindings that one scope opens -/

/-- `Accounted` runs that are granted bindings of level one at most leave no other ones in the queue.
    -/
theorem level_le_of_accounted {granted : List Pending} {c c' : Context}
    (h : c.Accounted granted c') (hc : ∀ b ∈ c.pending, b.level ≤ 1)
    (hgranted : ∀ b ∈ granted, b.level ≤ 1) : ∀ b ∈ c'.pending, b.level ≤ 1 := by
  intro b hb
  obtain ⟨-, opened, -, -, hcount⟩ := h
  -- A binding is its own first copy, so it is a copy of one that was queued or granted.
  have hself : b ∈ c'.pending.flatMap Pending.copies := by
    refine List.mem_flatMap.2 ⟨b, hb, ?_⟩
    rw [Pending.copies_eq]
    exact List.mem_append_left _ (List.mem_singleton_self b)
  have howed : 0 < Pending.owed b c'.pending := List.count_pos_iff.2 hself
  have hfrom : 0 < Pending.owed b (c.pending ++ granted) := by
    have := hcount b
    rw [Pending.owed_append]
    omega
  obtain ⟨b', hb', hcopy⟩ := List.mem_flatMap.1 (List.count_pos_iff.1 hfrom)
  have hlevel : b'.level ≤ 1 := by
    rcases List.mem_append.1 hb' with hb' | hb'
    · exact hc b' hb'
    · exact hgranted b' hb'
  obtain ⟨i, -, rfl⟩ := List.mem_map.1 hcopy
  show b'.level - i ≤ 1
  omega

/-- `openedByItems` without bindings of a higher level: apart from what was queued, only level one is
    opened. By induction on the items. -/
theorem openedByItems_eq_append (n : Node) (rest : List Node) (c : Context)
    (hlevel : ∀ b ∈ Node.bindingsAll (n :: rest), b.level ≤ 1) :
    ∃ later, openedByItems c (n :: rest) = c.pending ++ later ∧ ∀ b ∈ later, b.level ≤ 1 := by
  induction rest generalizing n c with
  | nil =>
    refine ⟨[], ?_, by simp⟩
    rw [openedByItems, Context.openScope_fst]
    rcases (value n).exec c.openScope.2 with ⟨_ | _, c₁⟩ <;> rfl
  | cons m more ih =>
    rw [Node.bindingsAll] at hlevel
    obtain ⟨hn, hrest⟩ := List.forall_mem_append.1 hlevel
    have haccounted : c.openScope.2.Accounted _ ((value n).exec c.openScope.2).2 :=
      (node_accounted .plain .ordinary n c.openScope.2).after
    rw [openedByItems, Context.openScope_fst]
    rcases hrun : (value n).exec c.openScope.2 with ⟨_ | _, c₁⟩
    · -- the item fails, and nothing is opened after it
      exact ⟨[], rfl, by simp⟩
    · rw [hrun] at haccounted
      obtain ⟨later, hopened, hlater⟩ := ih m c₁ hrest
      refine ⟨c₁.pending ++ later, by rw [← hopened], List.forall_mem_append.2 ⟨?_, hlater⟩⟩
      exact level_le_of_accounted haccounted (by simp) hn

/-- `shadow?` of a binding of level one at most: it leaves nothing behind. -/
theorem filterMap_shadow?_of_level_le {queue : List Pending} (h : ∀ b ∈ queue, b.level ≤ 1) :
    queue.filterMap Pending.shadow? = [] := by
  rw [List.filterMap_eq_nil_iff]
  intro b hb
  exact if_neg (Nat.not_lt.2 (h b hb))

/-! ## Items that open names -/

/-- Items are lowered to a term from a context. Their scope has `entries` first and then those of the
    context; the first item is lowered in it, and the term starts with an abstraction for each entry. -/
structure Opens (c : Context) (first : Node) (rest : List Node) (entries : List ScopeEntry)
    (t : Term) : Prop where
  scope : c.openScope.2.scope.entries = entries ++ c.scope.entries
  lowered : ∃ u c₁ steps deferred c₂,
    (value first).exec c.openScope.2 = (.ok u, c₁) ∧
      (items rest).exec c₁ = (.ok (steps, deferred), c₂) ∧
      t = BlockStep.chain (⟨c.openScope.1.length, u⟩ :: steps)
  abstractions : ∃ body : Term, t = body.abstracted entries.length

/-- `chain` starts with the abstractions of its first step. -/
theorem exists_chain_eq_abstracted (step : BlockStep) (steps : List BlockStep) :
    ∃ body : Term, BlockStep.chain (step :: steps) = body.abstracted (max 1 step.opened) := by
  cases steps with
  | nil => exact ⟨_, rfl⟩
  | cons next rest => exact ⟨_, rfl⟩

/-- `Opens` of `items` that succeed: they open what was queued. -/
theorem opens_of_items {first : Node} {rest : List Node} {c c' : Context} {steps : List BlockStep}
    {deferred : List Pending}
    (h : (items (first :: rest)).exec c = (.ok (steps, deferred), c')) :
    Opens c first rest (Pending.openedEntries c.pending) (BlockStep.chain steps) := by
  rw [items, exec_modifyGet_bind] at h
  obtain ⟨u, c₁, hfirst, h⟩ := exec_bind_eq_ok h
  obtain ⟨r, c₂, hrest, h⟩ := exec_bind_eq_ok h
  obtain ⟨more, deferred'⟩ := r
  obtain ⟨rfl, -⟩ : ⟨c.openScope.1.length, u⟩ :: more = steps ∧ _ := by
    simpa using congrArg Prod.fst h
  refine ⟨by rw [Context.scope_openScope], ⟨u, c₁, more, deferred', c₂, hfirst, hrest, rfl⟩, ?_⟩
  rw [Pending.length_openedEntries, ← Context.openScope_fst]
  exact exists_chain_eq_abstracted _ more

/-- `Opens` of a `block` that succeeds. -/
theorem opens_of_block {first : Node} {rest : List Node} {c c' : Context} {t : Term}
    (h : (block (first :: rest)).exec c = (.ok t, c')) :
    Opens c first rest (Pending.openedEntries c.pending) t := by
  rw [block_eq, exec_get_bind] at h
  obtain ⟨r, c₁, hitems, h⟩ := exec_bind_eq_ok h
  obtain ⟨steps, deferred⟩ := r
  have ht : BlockStep.chain steps = t := Except.ok.inj (congrArg Prod.fst h)
  rw [← ht]
  exact opens_of_items hitems

/-! ## A definition -/

/-- `name` leaves the queue as it is. -/
theorem name_pending (span : Span) (x : String) (c : Context) :
    Ends (fun _ c' => c'.pending = c.pending) (fun _ _ => True) ((name span x).exec c) := by
  rw [name, exec_get_bind]
  split
  · rfl
  · split
    · rfl
    · split
      · rfl
      · trivial

/-- `value` of a definition lowers its definer, its pattern and its body one after the other, and
    applies the first to the two others. -/
theorem exec_definition {D : Definition} {c c' : Context} {t : Term} (hc : c.pending = [])
    (h : (value D.item).exec c = (.ok t, c')) :
    ∃ definer c₁ events pattern c₂ body,
      (value D.definerNode).exec c = (.ok definer, c₁) ∧
      (node (if c.scope.isMacro D.definerNode then .tagged else .plain) .ordinary D.pattern).exec
        { c₁ with events := events } = (.ok pattern, c₂) ∧
      (block (D.first :: D.more)).exec c₂ = (.ok body, c') ∧
      t = .app (.app definer pattern) body := by
  have hplain (n : Node) : Delivery.plain = .tagged → c.scope.hasBindings n = false := by simp
  have hempty : { c with pending := [] } = c := by rw [← hc]
  rw [value, Definition.item, exec_call_ordinary (hplain _), hempty, hc] at h
  obtain ⟨definer, c₁, hdefiner, h⟩ := exec_bind_eq_ok h
  rw [exec_noteIf_bind] at h
  obtain ⟨values, c₂, hvalues, h⟩ := exec_bind_eq_ok h
  -- The two arguments of the definer are the pattern and the body.
  rw [arguments] at hvalues
  obtain ⟨pattern, c₃, hpattern, hvalues⟩ := exec_bind_eq_ok hvalues
  obtain ⟨bodies, c₄, hbodies, hvalues⟩ := exec_bind_eq_ok hvalues
  rw [arguments, node] at hbodies
  obtain ⟨body, c₅, hbody, hbodies⟩ := exec_bind_eq_ok hbodies
  rw [arguments] at hbodies
  simp only [exec_pure, Prod.mk.injEq, Except.ok.injEq] at hbodies hvalues
  obtain ⟨rfl, rfl⟩ := hbodies
  obtain ⟨rfl, rfl⟩ := hvalues
  have hback : c₄.restorePending [] = c₄ := rfl
  rw [exec_modify_bind, exec_pure, hback] at h
  obtain ⟨ht, rfl⟩ := Prod.mk.inj h
  rw [Definition.definerNode, node] at hdefiner
  refine ⟨definer, c₁, _, pattern, c₃, body, ?_, hpattern, hbody, (Except.ok.inj ht).symm⟩
  rw [value, Definition.definerNode, node, hdefiner]

/-- What the parts of a definition leave in the queue: the pattern its name and its parameters, the
    body a copy of the name (`block_pending`). -/
theorem definition_pending {D : Definition} {d : Delivery} {c c₁ c₂ c' : Context}
    {events : List Event} {definer pattern body : Term} (hc : c.pending = [])
    (hdefiner : (value D.definerNode).exec c = (.ok definer, c₁))
    (hpattern : (node d .ordinary D.pattern).exec { c₁ with events := events } = (.ok pattern, c₂))
    (hbody : (block (D.first :: D.more)).exec c₂ = (.ok body, c')) :
    c₂.scope = c.scope ∧ c'.scope = c.scope ∧
      c₂.pending = ⟨2, D.consume, D.name, D.kind⟩ :: D.parameters.map Parameter.pending ∧
      c'.pending = [⟨1, D.consume, D.name, D.kind⟩] := by
  have hscope₁ : c₁.scope = c.scope := ((node_framed .plain .ordinary _ c).of_ok hdefiner).2
  -- The definer is a name, and queues nothing.
  have hpending₁ : c₁.pending = [] := by
    have hname : Ends (fun _ c' => c'.pending = c.pending) (fun _ _ => True)
        ((value D.definerNode).exec c) := by
      rw [value, Definition.definerNode, node]
      exact (name_pending _ _ c).bind fun _ _ h => h
    rw [hname.of_ok hdefiner, hc]
  obtain ⟨hscope₂, hpending₂⟩ := (exec_pattern d D _).of_ok hpattern
  have hscope' : c'.scope = c₂.scope := ((block_framed _ c₂).of_ok hbody).2
  simp only [hpending₁, List.nil_append] at hpending₂
  refine ⟨hscope₂.trans hscope₁, hscope'.trans (hscope₂.trans hscope₁), hpending₂, ?_⟩
  -- The body opens the name and the parameters, and after them only what is of level one.
  obtain ⟨later, hopened, hlater⟩ := openedByItems_eq_append D.first D.more c₂ D.level_le
  have hparams : ∀ b ∈ D.parameters.map Parameter.pending, b.level ≤ 1 := by
    rw [List.forall_mem_map]
    exact fun p _ => p.level_le
  rw [(block_pending _ c₂).of_ok hbody, itemsOrNil, hopened, hpending₂, List.filterMap_append,
    filterMap_shadow?_of_level_le hlater, List.filterMap_cons, filterMap_shadow?_of_level_le hparams]
  rfl

end Lower

/-- `isMacro` of the name of a definition, inside the innermost scope entry of that name: it holds if a
    parameter is meant for a block. -/
theorem Definition.isMacro_iff (D : Definition) {inner : List ScopeEntry}
    (hinner : ∀ e ∈ inner, e.name? ≠ some D.name) (outer : List ScopeEntry) (pos : Nat) :
    (Scope.mk (inner ++ D.entry :: outer)).isMacro (.var pos D.name) ↔
      ∃ p ∈ D.parameters, p.consume = .block := by
  rw [Scope.isMacro, decide_eq_true_eq, Definition.entry, Scope.classify?_append_named hinner,
    Option.some.injEq, D.kind_eq_macroName_iff]

/-- `isMacro` of the name of a definition in its own body, where the parameters stand inside the name.
    If one is called like the definition, `classify?` finds the parameter, which is an ordinary name;
    otherwise it finds the definition. -/
theorem Definition.isMacro_body_iff (D : Definition) {inner : List ScopeEntry}
    (hinner : ∀ e ∈ inner, e.name? ≠ some D.name) (outer : List ScopeEntry) (pos : Nat) :
    (Scope.mk (inner ++ ((D.parameters.map Parameter.entry).reverse ++ [D.entry] ++ outer))).isMacro
        (.var pos D.name) ↔
      (∃ p ∈ D.parameters, p.consume = .block) ∧ ∀ p ∈ D.parameters, p.name ≠ D.name := by
  by_cases hnames : ∀ p ∈ D.parameters, p.name ≠ D.name
  · -- no parameter hides the name
    have hinner' : ∀ e ∈ inner ++ (D.parameters.map Parameter.entry).reverse,
        e.name? ≠ some D.name := by
      refine List.forall_mem_append.2 ⟨hinner, ?_⟩
      intro e he
      obtain ⟨p, hp, rfl⟩ := List.mem_map.1 (List.mem_reverse.1 he)
      simpa [Parameter.entry, ScopeEntry.named] using hnames p hp
    have hmacro := D.isMacro_iff hinner' outer pos
    rw [List.append_assoc] at hmacro
    rw [List.append_assoc, List.singleton_append, hmacro, and_iff_left hnames]
  · -- the innermost entry of the name is one of the parameters
    obtain ⟨p, hp, hname⟩ : ∃ p ∈ D.parameters, p.name = D.name := by simpa using hnames
    have hmem : ∃ e ∈ (D.parameters.map Parameter.entry).reverse, e.name? = some D.name := by
      refine ⟨p.entry, List.mem_reverse.2 (List.mem_map_of_mem hp), ?_⟩
      simp [Parameter.entry, ScopeEntry.named, hname]
    have hkind : ∀ e ∈ (D.parameters.map Parameter.entry).reverse, e.kind = .ordinary := by
      intro e he
      obtain ⟨q, -, rfl⟩ := List.mem_map.1 (List.mem_reverse.1 he)
      rfl
    rw [Scope.isMacro, Scope.classify?_append_of_ne hinner, List.append_assoc,
      Scope.classify?_append_of_mem hmem hkind]
    simp [hnames]

/-- `block` of a definition with items after it, part by part: the definer, the pattern, the body
    (`exec` of each), applied to what the items after it become. The body `Opens` the name and then the
    parameters: it starts with an abstraction for each, and its first item is lowered in the scope of
    the definition with these entries added. The items after it start with one abstraction, and the
    first of them is lowered in the scope of the definition with the name added. Both entries of the
    name are of one kind, which is that of a macro exactly if one of the parameters is meant for a
    block. So after the definition, where no inner entry hides it, `isMacro` holds of the name exactly
    in that case; and so it does in the body, unless a parameter is called like the definition and
    hides it there. -/
theorem block_definition_opens (D : Definition) (next : Node) (rest : List Node)
    (c c' : Context) (t : Term)
    (h : (Lower.block (D.item :: next :: rest)).exec c = (.ok t, c')) :
    ∃ (definer pattern body following : Term) (c₁ c₂ c₃ : Context) (events : List Event),
      ((Lower.value D.definerNode).exec c.openScope.2 = (.ok definer, c₁) ∧
        (Lower.node (if c.openScope.2.scope.isMacro D.definerNode then .tagged else .plain) .ordinary
          D.pattern).exec { c₁ with events := events } = (.ok pattern, c₂) ∧
        (Lower.block (D.first :: D.more)).exec c₂ = (.ok body, c₃) ∧
        t = (Term.app (.app (.app definer pattern) body) following).abstracted
          (max 1 c.pending.length)) ∧
      (c₂.scope = c.openScope.2.scope ∧
        Lower.Opens c₂ D.first D.more ((D.parameters.map Parameter.entry).reverse ++ [D.entry]) body) ∧
      (c₃.scope = c.openScope.2.scope ∧ Lower.Opens c₃ next rest [D.entry] following) ∧
      (D.entry = .named .macroName D.name ↔ ∃ p ∈ D.parameters, p.consume = .block) ∧
      ∀ (inner : List ScopeEntry) (pos : Nat), (∀ e ∈ inner, e.name? ≠ some D.name) →
        ((Scope.mk (inner ++ c₃.openScope.2.scope.entries)).isMacro (.var pos D.name) ↔
          ∃ p ∈ D.parameters, p.consume = .block) ∧
        ((Scope.mk (inner ++ c₂.openScope.2.scope.entries)).isMacro (.var pos D.name) ↔
          (∃ p ∈ D.parameters, p.consume = .block) ∧ ∀ p ∈ D.parameters, p.name ≠ D.name) := by
  rw [Lower.exec_block_cons] at h
  obtain ⟨u, c₃, hitem, h⟩ := Lower.exec_bind_eq_ok h
  obtain ⟨r, c₄, hrest, h⟩ := Lower.exec_bind_eq_ok h
  obtain ⟨steps, deferred⟩ := r
  have ht : BlockStep.chain (⟨c.pending.length, u⟩ :: steps) = t :=
    Except.ok.inj (congrArg Prod.fst h)
  obtain ⟨definer, c₁, events, pattern, c₂, body, hdefiner, hpattern, hbody, rfl⟩ :=
    Lower.exec_definition c.pending_openScope hitem
  obtain ⟨hscope₂, hscope₃, hpending₂, hpending₃⟩ :=
    Lower.definition_pending c.pending_openScope hdefiner hpattern hbody
  -- The body opens the name and the parameters, the items after it what is left of the name.
  have hopens₂ := Lower.opens_of_block hbody
  have hentries₂ : Pending.openedEntries c₂.pending =
      (D.parameters.map Parameter.entry).reverse ++ [D.entry] := by
    rw [hpending₂, Pending.openedEntries, if_neg (by simp), List.map_cons, List.reverse_cons,
      List.map_map]
    rfl
  have hopens₃ := Lower.opens_of_items hrest
  have hentries₃ : Pending.openedEntries c₃.pending = [D.entry] := by
    rw [hpending₃]
    rfl
  rw [hentries₂] at hopens₂
  rw [hentries₃] at hopens₃
  -- One name is opened for the items, so that they become the argument of the definition.
  obtain ⟨v, more, rfl⟩ := (Lower.items_cons_head next rest c₃).of_ok hrest
  refine ⟨definer, pattern, body, _, c₁, c₂, c₃, events, ⟨hdefiner, hpattern, hbody, ?_⟩,
    ⟨hscope₂, hopens₂⟩, ⟨hscope₃, hopens₃⟩, ?_, ?_⟩
  · -- the term
    rw [← ht, Lower.chain_cons_of_opened _ _ _ _ _ (by rw [hpending₃]; exact Nat.one_ne_zero)]
    rfl
  · -- the kind
    rw [← D.kind_eq_macroName_iff]
    simp [Definition.entry, ScopeEntry.named]
  · -- calls of the name
    intro inner pos hinner
    rw [hopens₂.scope, hopens₃.scope]
    exact ⟨D.isMacro_iff hinner _ pos, D.isMacro_body_iff hinner _ pos⟩

/-- A macro defines `loop`, which takes a binding for a block and so is a macro itself, in the body that
    calls it again and in the item after it. -/
theorem block_definition_opens_loop :
    let c := Context.initial ⟨[(.macroName, "def")], "!"⟩
    let D : Definition := {
      pos := 0, definerPos := 0, definer := "def", patternPos := 0, namePos := 0
      consume := .scope, name := "loop"
      parameters := [⟨0, 1, .scope, "x", Nat.le_refl 1⟩, ⟨0, 0, .block, "b", Nat.zero_le 1⟩]
      bodyPos := 0, first := .callNamed 0 "loop" [.var 0 "x", .bind 0 "y"], more := [.var 0 "y"]
      level_le := by simp [Node.bindingsAll, Node.bindings, Node.callNamed, Node.bind] }
    let next := Node.callNamed 0 "loop" [.atom 0 "a"]
    let pattern := Term.app (.app (.lit 3) (.app (.lit 2) (.lit 4)))
      (.app (.app (.lit 2) (.lit 5)) (.app (.app (.lit 2) (.lit 6)) (.lit 0)))
    let body := Term.abs (.abs (.abs (.app
      (.app (.app (.var 2) (.app (.lit 1) (.var 1))) (.app (.lit 2) (.lit 7))) (.abs (.var 0)))))
    let following := Term.abs (.app (.var 0) (.app (.lit 1) (.lit 8)))
    let t := Term.abs (.app (.app (.app (.var 1) pattern) body) following)
    ((Lower.block [D.item, next]).exec c).1 = .ok t ∧
      ∃ c₂ c₃ : Context,
        Lower.Opens c₂ D.first D.more
          [.named .ordinary "b", .named .ordinary "x", .named .macroName "loop"] body ∧
        Lower.Opens c₃ next [] [.named .macroName "loop"] following ∧
        c₂.openScope.2.scope.isMacro (.var 0 "loop") ∧
        c₃.openScope.2.scope.isMacro (.var 0 "loop") := by
  intro c D next pattern body following t
  have hterm : ((Lower.block [D.item, next]).exec c).1 = .ok t := by cbv
  have hrun : (Lower.block [D.item, next]).exec c =
      (.ok t, ((Lower.block [D.item, next]).exec c).2) := by
    rw [← hterm]
  obtain ⟨definer, pattern', body', following', _, c₂, c₃, _, ⟨_, _, _, ht⟩, ⟨_, hbody⟩,
    ⟨_, hfollowing⟩, _, hmacro⟩ := block_definition_opens D next [] c _ t hrun
  -- The body and what follows are found in the term, so the scopes are those of these two.
  have habs : t = .abs (.app (.app (.app definer pattern') body') following') := ht
  obtain ⟨hdefinition, rfl⟩ := Term.app.inj (Term.abs.inj habs)
  obtain ⟨-, rfl⟩ := Term.app.inj hdefinition
  obtain ⟨hafter, hinside⟩ := hmacro [] 0 (by simp)
  have hblock : ∃ p ∈ D.parameters, p.consume = .block := by decide
  exact ⟨hterm, c₂, c₃, hbody, hfollowing, hinside.2 ⟨hblock, by decide⟩, hafter.2 hblock⟩

/-- The position of the callee, if an event is a macro call. -/
def Event.macroCallee? : Event → Option Nat
  | .macroCall pos _ => some pos
  | _ => none

/-- A definition `f` with a parameter `f` that is meant for a block. The definition is a macro and is
    called as one after its body, at 24. In the body, at 14, `f` is the parameter and is called as an
    ordinary name. -/
theorem block_definition_opens_shadowed :
    let c := Context.initial ⟨[(.ordinary, "def")], "!"⟩
    let D : Definition := {
      pos := 0, definerPos := 0, definer := "def", patternPos := 4, namePos := 4
      consume := .scope, name := "f"
      parameters := [⟨8, 1, .block, "f", Nat.le_refl 1⟩]
      bodyPos := 12, first := .callNamed 14 "f" [.bind 16 "y"], more := []
      level_le := by simp [Node.bindingsAll, Node.bindings, Node.callNamed, Node.bind] }
    let next := Node.callNamed 24 "f" [.bind 26 "z"]
    let body := Term.abs (.abs (.app (.var 0) (.lit 5)))
    let following := Term.abs (.app (.var 0) (.app (.lit 2) (.lit 6)))
    (∃ p ∈ D.parameters, p.consume = .block) ∧
      ((Lower.block [D.item, next]).exec c).1 =
        .ok (.abs (.app (.app (.app (.var 1) (.app (.lit 4) (.lit 4))) body) following)) ∧
      ((Lower.block [D.item, next]).exec c).2.events.filterMap Event.macroCallee? = [24] := by
  intro c D next body following
  refine ⟨by decide, ?_, ?_⟩
  · cbv
  · cbv

end Unsugar
