import Mathlib
import Unsugar.Proofs.Run

/-!
# Lowering does not depend on how things are called

Names are compared in many places: in scopes, among the built-in names, as effects, in the literal
table, and where a macro's arguments are looked at. None of them depends on more than which names are
equal. So when the names of a program and its prelude are replaced one for one, and its texts as well,
lowering goes through the same steps in contexts that correspond, and ends in the same term.

## Key results

- `Renaming.Faithful`: the renamings that keep apart what lowering keeps apart
- `LiteralTable.intern_rename`, `Scope.resolve?_rename`, `Scope.hasBindings_rename`,
  `Context.openScope_rename`: each place where names are compared
- `Lower.block_equivariant`: renamed blocks in renamed contexts
- `lowerAll_rename`: whole programs
-/

namespace Unsugar

/-- Other names for the names of a program, and other texts for its texts. -/
structure Renaming where
  name : String → String
  text : String → String

/-- A renaming that takes different names and texts to different ones, leaves the names that lowering
    knows of itself as they are, and takes effects and nothing else to effects. -/
structure Renaming.Faithful (ρ : Renaming) (settings : Settings) : Prop where
  name_injective : Function.Injective ρ.name
  text_injective : Function.Injective ρ.text
  name_reserved : ∀ r : Reserved, ρ.name r.name = r.name
  name_builtin : ∀ x, (Builtin.ofName? x).isSome → ρ.name x = x
  isEffect_name : ∀ x, (Context.initial settings).isEffect (ρ.name x) =
    (Context.initial settings).isEffect x

/-! ## Renaming data -/

namespace Node

mutual

/-- Renames the names and texts of a node. -/
def rename (ρ : Renaming) : Node → Node
  | .var pos name => .var pos (ρ.name name)
  | .atom pos name => .atom pos (ρ.name name)
  | .text pos content => .text pos (ρ.text content)
  | .binding pos level consume name => .binding pos level consume (ρ.name name)
  | .block pos items => .block pos (renameAll ρ items)
  | .call pos callee args => .call pos (callee.rename ρ) (renameAll ρ args)

/-- Renames the names and texts of several nodes. -/
def renameAll (ρ : Renaming) : List Node → List Node
  | [] => []
  | node :: rest => node.rename ρ :: renameAll ρ rest

end

end Node

/-- Renames the content of a literal. -/
def Literal.rename (ρ : Renaming) : Literal → Literal
  | .atom name => .atom (ρ.name name)
  | .text content => .text (ρ.text content)

/-- Renames the literals of a table, which keep their places. -/
def LiteralTable.rename (ρ : Renaming) (t : LiteralTable) : LiteralTable :=
  ⟨t.toList.map (Literal.rename ρ)⟩

/-- Renames the name of an entry, if it has one. -/
def ScopeEntry.rename (ρ : Renaming) (e : ScopeEntry) : ScopeEntry :=
  { e with name? := e.name?.map ρ.name }

/-- Renames the names of a scope. -/
def Scope.rename (ρ : Renaming) (s : Scope) : Scope :=
  ⟨s.entries.map (ScopeEntry.rename ρ)⟩

/-- Renames the name of a queued binding. -/
def Pending.rename (ρ : Renaming) (b : Pending) : Pending :=
  { b with name := ρ.name b.name }

/-- Renames the names that an event of lowering reports. -/
def Event.rename (ρ : Renaming) : Event → Event
  | .queued name level kind => .queued (ρ.name name) level kind
  | .opened name => .opened (ρ.name name)
  | .builtinUsed name arity => .builtinUsed (ρ.name name) arity
  | e => e

/-- Renames all that a context knows by name. -/
def Context.rename (ρ : Renaming) (c : Context) : Context where
  scope := c.scope.rename ρ
  pending := c.pending.map (Pending.rename ρ)
  literals := c.literals.rename ρ
  effectSuffix := c.effectSuffix
  events := c.events.map (Event.rename ρ)

/-- Renames the names of the prelude. -/
def Settings.rename (ρ : Renaming) (settings : Settings) : Settings :=
  { settings with prelude := settings.prelude.map fun entry => (entry.1, ρ.name entry.2) }

/-! ## Trees -/

namespace Node

variable (ρ : Renaming)

@[simp] theorem pos_rename (n : Node) : (n.rename ρ).pos = n.pos := by
  cases n <;> rfl

@[simp] theorem length_renameAll (ns : List Node) : (renameAll ρ ns).length = ns.length := by
  induction ns with
  | nil => rfl
  | cons n rest ih => exact congrArg (· + 1) ih

@[simp] theorem isEmpty_renameAll (ns : List Node) : (renameAll ρ ns).isEmpty = ns.isEmpty := by
  cases ns <;> rfl

/-- `definitionKind` is read off what the parameters are for, not off their names. -/
theorem definitionKind_renameAll (params : List Node) :
    definitionKind (renameAll ρ params) = definitionKind params := by
  have hany : (renameAll ρ params).any isBlockBinding = params.any isBlockBinding := by
    induction params with
    | nil => rfl
    | cons n rest ih =>
      have hhead : (n.rename ρ).isBlockBinding = n.isBlockBinding := by
        cases n with
        | binding pos level consume name => cases consume <;> rfl
        | _ => rfl
      rw [renameAll, List.any_cons, List.any_cons, hhead, ih]
  rw [definitionKind, definitionKind, hany]

end Node

/-! ## Places where names are compared -/

section Faithful

variable {ρ : Renaming} {settings : Settings}

/-- `Literal.rename` keeps different literals apart. -/
theorem Literal.rename_injective (h : ρ.Faithful settings) :
    Function.Injective (Literal.rename ρ) := by
  intro a b hab
  cases a <;> cases b <;> simp only [Literal.rename, reduceCtorEq, Literal.atom.injEq,
    Literal.text.injEq] at hab ⊢
  · exact h.name_injective hab
  · exact h.text_injective hab

/-- `indexOf?` of a renamed literal in a renamed table. -/
theorem LiteralTable.indexOf?_rename (h : ρ.Faithful settings) (t : LiteralTable) (l : Literal) :
    (t.rename ρ).indexOf? (l.rename ρ) = t.indexOf? l := by
  rw [indexOf?, rename, List.findIdx?_map, indexOf?]
  congr 1
  funext a
  simp [(Literal.rename_injective h).eq_iff]

/-- `intern` puts a renamed literal at the same place. -/
theorem LiteralTable.intern_rename (h : ρ.Faithful settings) (t : LiteralTable) (l : Literal) :
    (t.rename ρ).intern (l.rename ρ) = ((t.intern l).1, (t.intern l).2.rename ρ) := by
  rw [intern, indexOf?_rename h, intern]
  cases t.indexOf? l with
  | some i => rfl
  | none => simp [rename, size]

/-- An entry carries a name exactly if the renamed entry carries the renamed name. -/
theorem ScopeEntry.name?_rename_eq_iff (h : ρ.Faithful settings) (e : ScopeEntry) (x : String) :
    (e.rename ρ).name? = some (ρ.name x) ↔ e.name? = some x := by
  cases hname : e.name? with
  | none => simp [rename, hname]
  | some y => simp [rename, hname, h.name_injective.eq_iff]

/-- `resolve?` of a renamed name in a renamed scope is the same index. -/
theorem Scope.resolve?_rename (h : ρ.Faithful settings) (s : Scope) (x : String) :
    (s.rename ρ).resolve? (ρ.name x) = s.resolve? x := by
  rw [resolve?, rename, List.findIdx?_map, resolve?]
  congr 1
  funext e
  simp [ScopeEntry.name?_rename_eq_iff h]

/-- `classify?` of a renamed name in a renamed scope is the same kind. -/
theorem Scope.classify?_rename (h : ρ.Faithful settings) (s : Scope) (x : String) :
    (s.rename ρ).classify? (ρ.name x) = s.classify? x := by
  have hp : (fun e : ScopeEntry => decide (e.name? = some (ρ.name x))) ∘ ScopeEntry.rename ρ =
      fun e => decide (e.name? = some x) := by
    funext e
    simp [ScopeEntry.name?_rename_eq_iff h]
  rw [classify?, rename, List.find?_map, hp, Option.map_map, classify?]
  rfl

/-- `isMacro` of a renamed node in a renamed scope. -/
theorem Scope.isMacro_rename (h : ρ.Faithful settings) (s : Scope) (n : Node) :
    (s.rename ρ).isMacro (n.rename ρ) = s.isMacro n := by
  cases n with
  | var pos x => rw [Node.rename, isMacro, isMacro, classify?_rename h]
  | _ => rfl

mutual

/-- `hasBindings` does not depend on names: a macro sees the same structure. By recursion on the node.
    -/
theorem Scope.hasBindings_rename (h : ρ.Faithful settings) (s : Scope) :
    (n : Node) → (s.rename ρ).hasBindings (n.rename ρ) = s.hasBindings n
  | .var .. | .atom .. | .text .. | .binding .. | .block .. => by simp [Node.rename, hasBindings]
  | .call pos callee args => by
    rw [Node.rename, hasBindings, hasBindings, isMacro_rename h, hasBindings_rename h s callee,
      anyHasBindings_rename h s args]

/-- `anyHasBindings` does not depend on names. -/
theorem Scope.anyHasBindings_rename (h : ρ.Faithful settings) (s : Scope) :
    (ns : List Node) → (s.rename ρ).anyHasBindings (Node.renameAll ρ ns) = s.anyHasBindings ns
  | [] => by rw [Node.renameAll, anyHasBindings, anyHasBindings]
  | n :: rest => by
    rw [Node.renameAll, anyHasBindings, anyHasBindings, hasBindings_rename h s n,
      anyHasBindings_rename h s rest]

end

/-- `Builtin.ofName?` of a renamed name: it is built in only if it is the built-in name itself. -/
theorem Builtin.ofName?_rename (h : ρ.Faithful settings) (x : String) :
    Builtin.ofName? (ρ.name x) = Builtin.ofName? x := by
  cases hx : Builtin.ofName? x with
  | some b => rw [h.name_builtin x (by rw [hx]; rfl), hx]
  | none =>
    cases hy : Builtin.ofName? (ρ.name x) with
    | none => rfl
    | some b =>
      -- A built-in name is its own image, so nothing else is taken to it.
      have hsame : ρ.name x = x := h.name_injective (h.name_builtin _ (by rw [hy]; rfl))
      rw [hsame, hx] at hy
      cases hy

/-! ## Contexts -/

namespace Context

/-- `isEffect` of a renamed name, in any context with the suffix of the settings. -/
theorem isEffect_rename (h : ρ.Faithful settings) {c : Context}
    (hc : c.effectSuffix = settings.effectSuffix) (x : String) :
    (c.rename ρ).isEffect (ρ.name x) = c.isEffect x := by
  have hsame (y : String) : c.isEffect y = (initial settings).isEffect y := by
    rw [isEffect, hc]
    rfl
  have hrenamed : (c.rename ρ).isEffect (ρ.name x) = c.isEffect (ρ.name x) := rfl
  rw [hrenamed, hsame, hsame, h.isEffect_name]

theorem intern_rename (h : ρ.Faithful settings) (c : Context) (l : Literal) :
    (c.rename ρ).intern (l.rename ρ) = ((c.intern l).1, (c.intern l).2.rename ρ) := by
  have htable : (c.rename ρ).literals = c.literals.rename ρ := rfl
  simp only [intern, htable, LiteralTable.intern_rename h]
  rfl

theorem record_rename (h : ρ.Faithful settings) (c : Context) (b : Pending) :
    (c.rename ρ).record (b.rename ρ) = ((c.record b).1, (c.record b).2.rename ρ) := by
  rw [record, record, ← intern_rename h]
  simp [rename, note, Pending.rename, Event.rename, Literal.rename]

theorem openedEntries_rename (ρ : Renaming) (queue : List Pending) :
    Pending.openedEntries (queue.map (Pending.rename ρ)) =
      (Pending.openedEntries queue).map (ScopeEntry.rename ρ) := by
  cases queue with
  | nil => rfl
  | cons b rest =>
    simp [Pending.openedEntries, Pending.entry, Pending.rename, ScopeEntry.named, ScopeEntry.rename,
      Function.comp_def]

/-- `Context.openScope` in a renamed context. -/
theorem openScope_rename (ρ : Renaming) (c : Context) :
    (c.rename ρ).openScope = (c.openScope.1.map (Pending.rename ρ), c.openScope.2.rename ρ) := by
  rw [openScope_eq, openScope_eq]
  simp [rename, Scope.rename, openedEntries_rename, Pending.rename, Event.rename,
    Function.comp_def]

/-- `Context.initial` with a renamed prelude; the reserved literals stay. -/
theorem initial_rename (h : ρ.Faithful settings) :
    initial (settings.rename ρ) = (initial settings).rename ρ := by
  -- `name_reserved` keeps the reserved atoms, which every table starts with.
  have hreserved : LiteralTable.reserved.rename ρ = LiteralTable.reserved := by
    rw [LiteralTable.rename, LiteralTable.reserved, List.map_map]
    congr 1
    refine List.map_congr_left fun r _ => ?_
    exact congrArg Literal.atom (h.name_reserved r)
  have hscope : (initial (settings.rename ρ)).scope = (initial settings).scope.rename ρ := by
    rw [scope_initial, scope_initial]
    simp [Settings.rename, Scope.rename, ScopeEntry.rename, ScopeEntry.named, Function.comp_def]
  rw [rename, ← hscope]
  simp [initial, hreserved, Settings.rename]

end Context

/-- `shadow?` over a renamed queue. -/
theorem Pending.filterMap_shadow?_rename (ρ : Renaming) (queue : List Pending) :
    (queue.map (Pending.rename ρ)).filterMap Pending.shadow? =
      (queue.filterMap Pending.shadow?).map (Pending.rename ρ) := by
  rw [List.filterMap_map, List.map_filterMap]
  congr 1
  funext b
  by_cases hlevel : 1 < b.level <;> simp [Pending.shadow?, Pending.rename, hlevel]

end Faithful

/-! ## Runs side by side -/

/-- Failures at the same place whose names correspond. -/
def Renaming.SameFailure (ρ : Renaming) (e e' : Unresolved) : Prop :=
  e'.name = ρ.name e.name ∧ e'.span.start = e.span.start

namespace Lower

variable {α β α' β' : Type} {ρ : Renaming} {settings : Settings}

/-- Two computations end alike in a context and its renaming: with results that `g` takes to one
    another, again in a context and its renaming. -/
def Equivariant (ρ : Renaming) (settings : Settings) (g : α → β) (x : Lower α) (y : Lower β) : Prop :=
  ∀ c : Context, c.effectSuffix = settings.effectSuffix →
    EndAlike (fun a b c' d' => b = g a ∧ d' = c'.rename ρ ∧ c'.effectSuffix = settings.effectSuffix)
      ρ.SameFailure (x.exec c) (y.exec (c.rename ρ))

/-- `pure` of results that `g` takes to one another. -/
theorem equivariant_pure {g : α → β} {a : α} {b : β} (hab : b = g a) :
    Equivariant ρ settings g (pure a) (pure b) :=
  fun _ hc => ⟨hab, rfl, hc⟩

/-- `>>=` keeps `Equivariant`. -/
theorem Equivariant.bind {g : α → β} {g' : α' → β'} {x : Lower α} {y : Lower β}
    {f : α → Lower α'} {f' : β → Lower β'} (hx : Equivariant ρ settings g x y)
    (hf : ∀ a, Equivariant ρ settings g' (f a) (f' (g a))) :
    Equivariant ρ settings g' (x >>= f) (y >>= f') := by
  intro c hc
  refine (hx c hc).bind ?_
  intro a b c' d' hmid
  obtain ⟨rfl, rfl, hc'⟩ := hmid
  exact hf a c' hc'

/-- `modifyGet` of functions that change a context in corresponding ways. -/
theorem equivariant_modifyGet {g : α → β} {f : Context → α × Context} {f' : Context → β × Context}
    (hf : ∀ c, f' (c.rename ρ) = (g (f c).1, (f c).2.rename ρ))
    (hsuffix : ∀ c, (f c).2.effectSuffix = c.effectSuffix) :
    Equivariant ρ settings g (modifyGet f) (modifyGet f') := by
  intro c hc
  rw [exec_modifyGet, exec_modifyGet, hf]
  exact ⟨rfl, rfl, (hsuffix c).trans hc⟩

/-- `modify` of functions that change a context in corresponding ways. -/
theorem equivariant_modify {f f' : Context → Context}
    (hf : ∀ c, f' (c.rename ρ) = (f c).rename ρ)
    (hsuffix : ∀ c, (f c).effectSuffix = c.effectSuffix) :
    Equivariant ρ settings id (modify f) (modify f') := by
  intro c hc
  rw [exec_modify, exec_modify, hf]
  exact ⟨rfl, rfl, (hsuffix c).trans hc⟩

theorem note_equivariant {e e' : Event} (he : e' = e.rename ρ) :
    Equivariant ρ settings id (note e) (note e') := by
  subst he
  exact equivariant_modify (fun _ => rfl) fun _ => rfl

theorem noteIf_equivariant (condition : Bool) {e e' : Event} (he : e' = e.rename ρ) :
    Equivariant ρ settings id (noteIf condition e) (noteIf condition e') := by
  cases condition with
  | false => exact equivariant_pure rfl
  | true => exact note_equivariant he

/-- `Context.intern` of a renamed literal gives the same place. -/
theorem intern_equivariant (h : ρ.Faithful settings) (l : Literal) :
    Equivariant ρ settings id (modifyGet (·.intern l)) (modifyGet (·.intern (l.rename ρ))) :=
  equivariant_modifyGet (fun c => c.intern_rename h l) fun c => (c.grows_intern l).effectSuffix

/-- `literal` of a renamed literal gives the same term. -/
theorem literal_equivariant (h : ρ.Faithful settings) (l : Literal) :
    Equivariant ρ settings id (literal l) (literal (l.rename ρ)) :=
  (intern_equivariant h l).bind fun _ => equivariant_pure rfl

/-- `queue` of a renamed binding gives the same term. -/
theorem queue_equivariant (h : ρ.Faithful settings) (b : Pending) :
    Equivariant ρ settings id (queue b) (queue (b.rename ρ)) := by
  refine Equivariant.bind ?_ fun _ => equivariant_pure rfl
  exact equivariant_modifyGet (fun c => c.record_rename h b) fun c => (c.grows_record b).effectSuffix

/-- `name` of a renamed name means what the name means: the same index, the same built-in term, or the
    effect of the same place. -/
theorem name_equivariant (h : ρ.Faithful settings) (pos : Nat) (x : String) :
    Equivariant ρ settings id (name (Node.var pos x).span x)
      (name (Node.var pos (ρ.name x)).span (ρ.name x)) := by
  have hbuiltin (b : Builtin) : Equivariant ρ settings id
      (do note (.builtinUsed x b.arity); return b.term)
      (do note (.builtinUsed (ρ.name x) b.arity); return b.term) :=
    (note_equivariant rfl).bind fun _ => equivariant_pure rfl
  have heffect : Equivariant ρ settings id
      (do return Term.effect (← modifyGet (·.intern (.atom x))))
      (do return Term.effect (← modifyGet (·.intern (.atom (ρ.name x))))) :=
    (intern_equivariant h (.atom x)).bind fun _ => equivariant_pure rfl
  intro c hc
  -- A name is looked up in the scope, then among the built-in terms, then as an effect.
  rw [name, name, exec_get_bind, exec_get_bind, Builtin.ofName?_rename h,
    Context.isEffect_rename h hc, show (c.rename ρ).scope = c.scope.rename ρ from rfl,
    Scope.resolve?_rename h]
  cases c.scope.resolve? x with
  | some i => exact ⟨rfl, rfl, hc⟩
  | none =>
    cases Builtin.ofName? x with
    | some b => exact hbuiltin b c hc
    | none => exact endAlike_ite (fun _ => heffect c hc) (fun _ => ⟨rfl, rfl⟩)

/-- `closeBlock` with a renamed queue. -/
theorem closeBlock_equivariant (depth : Nat) (steps : List BlockStep) (deferred : List Pending) :
    Equivariant ρ settings id (closeBlock depth steps deferred)
      (closeBlock depth steps (deferred.map (Pending.rename ρ))) := by
  have hclose : Equivariant ρ settings id
      (modify fun c => (c.setPending deferred).truncate depth)
      (modify fun c => (c.setPending (deferred.map (Pending.rename ρ))).truncate depth) := by
    refine equivariant_modify (fun c => ?_) fun _ => rfl
    simp [Context.setPending, Context.truncate, Context.rename, Scope.truncate, Scope.rename,
      Scope.depth]
  exact (note_equivariant rfl).bind fun _ => hclose.bind fun _ => equivariant_pure rfl

/-! ## All of lowering -/

/-- `node` of a renamed call gives the same term if its callee and its arguments do. -/
theorem call_equivariant (h : ρ.Faithful settings) (d : Delivery) (k : NameKind) (pos : Nat)
    (callee : Node) (args : List Node)
    (hcallee : ∀ d k, Equivariant ρ settings id (node d k callee) (node d k (callee.rename ρ)))
    (hargs : ∀ d, Equivariant ρ settings id (arguments d args)
      (arguments d (Node.renameAll ρ args))) :
    Equivariant ρ settings id (node d k (.call pos callee args))
      (node d k ((Node.call pos callee args).rename ρ)) := by
  intro c hc
  -- Whether the call is structure, and whether its callee is a macro, depends on what names mean and
  -- not on how they are spelt, so both runs take the same branch.
  have hbindings := Scope.hasBindings_rename h c.scope (.call pos callee args)
  rw [Node.rename] at hbindings ⊢
  rw [node, node, exec_get_bind, exec_get_bind]
  dsimp only
  rw [show (c.rename ρ).scope = c.scope.rename ρ from rfl, hbindings, Scope.isMacro_rename h,
    Node.definitionKind_renameAll, Node.pos_rename, Node.length_renameAll, Node.isEmpty_renameAll]
  refine endAlike_ite (fun _ => ?_) (fun _ => ?_)
  · -- structure
    refine ((hcallee _ _).bind fun head => (hargs _).bind fun ts => ?_) c hc
    exact equivariant_pure rfl
  · -- ordinary: the queue is renamed where it is put aside and where it is put back
    have htake : Equivariant ρ settings (List.map (Pending.rename ρ))
        (modifyGet Context.takePending) (modifyGet Context.takePending) :=
      equivariant_modifyGet (fun _ => rfl) fun _ => rfl
    have hrestore (saved : List Pending) : Equivariant ρ settings id
        (modify (·.restorePending saved))
        (modify (·.restorePending (saved.map (Pending.rename ρ)))) :=
      equivariant_modify (fun c => by simp [Context.restorePending, Context.rename]) fun _ => rfl
    refine (htake.bind fun saved => (hcallee _ _).bind fun fn => ?_) c hc
    refine (noteIf_equivariant _ rfl).bind fun _ => (hargs _).bind fun values => ?_
    exact (hrestore saved).bind fun _ => equivariant_pure rfl

/-- The steps of renamed items are the same, and what they defer is renamed. -/
abbrev renameDeferred (ρ : Renaming) (r : List BlockStep × List Pending) :
    List BlockStep × List Pending :=
  (r.1, r.2.map (Pending.rename ρ))

/-- `items` of one more item: what its scope opens is renamed, so the counts are the same. -/
theorem items_cons_equivariant (n : Node) (rest : List Node)
    (hn : Equivariant ρ settings id (node .plain .ordinary n) (node .plain .ordinary (n.rename ρ)))
    (hrest : Equivariant ρ settings (renameDeferred ρ) (items rest)
      (items (Node.renameAll ρ rest))) :
    Equivariant ρ settings (renameDeferred ρ) (items (n :: rest))
      (items (Node.renameAll ρ (n :: rest))) := by
  rw [Node.renameAll, items, items]
  have hopen : Equivariant ρ settings (List.map (Pending.rename ρ))
      (modifyGet Context.openScope) (modifyGet Context.openScope) :=
    equivariant_modifyGet (fun c => c.openScope_rename ρ) fun c => c.effectSuffix_openScope
  refine hopen.bind fun opened => hn.bind fun t => hrest.bind fun r => equivariant_pure ?_
  rw [Pending.filterMap_shadow?_rename, List.length_map]
  simp [renameDeferred]

/-- `itemsOrNil` of renamed items: the atom `Nil` is reserved and keeps its name. -/
theorem itemsOrNil_rename (h : ρ.Faithful settings) (ns : List Node) :
    itemsOrNil (Node.renameAll ρ ns) = Node.renameAll ρ (itemsOrNil ns) := by
  cases ns with
  | nil => simp [itemsOrNil, Node.renameAll, Node.rename, h.name_reserved]
  | cons n rest => simp [itemsOrNil, Node.renameAll]

/-- `block` is equivariant if its items are. -/
theorem block_equivariant_of_items (h : ρ.Faithful settings) (ns : List Node)
    (hitems : Equivariant ρ settings (renameDeferred ρ) (items (itemsOrNil ns))
      (items (Node.renameAll ρ (itemsOrNil ns)))) :
    Equivariant ρ settings id (block ns) (block (Node.renameAll ρ ns)) := by
  intro c hc
  rw [block_eq, block_eq, exec_get_bind, exec_get_bind, itemsOrNil_rename h]
  have hdepth : (c.rename ρ).scope.depth = c.scope.depth := List.length_map _
  rw [hdepth]
  exact (hitems.bind fun r => closeBlock_equivariant _ r.1 r.2) c hc

/-- All of lowering is equivariant: `node`, `arguments` and `items`, by `Lower.induct`. -/
private theorem equivariant_all (h : ρ.Faithful settings) :
    (∀ d k n, Equivariant ρ settings id (node d k n) (node d k (n.rename ρ))) ∧
      (∀ d ns, Equivariant ρ settings id (arguments d ns) (arguments d (Node.renameAll ρ ns))) ∧
      ∀ ns, Equivariant ρ settings (renameDeferred ρ) (items ns) (items (Node.renameAll ρ ns)) := by
  refine induct (fun d k n => Equivariant ρ settings id (node d k n) (node d k (n.rename ρ)))
    (fun d ns => Equivariant ρ settings id (arguments d ns) (arguments d (Node.renameAll ρ ns)))
    (fun ns => Equivariant ρ settings (renameDeferred ρ) (items ns) (items (Node.renameAll ρ ns)))
    ?_ ?_ ?_ ?_ ?_ (call_equivariant h) ?_ ?_ ?_ items_cons_equivariant
  · -- var
    intro d k pos x
    rw [Node.rename, node, node]
    exact (name_equivariant h pos x).bind fun _ => equivariant_pure rfl
  · -- atom
    intro d k pos x
    rw [Node.rename, node, node]
    exact (literal_equivariant h (.atom x)).bind fun _ => equivariant_pure rfl
  · -- text
    intro d k pos content
    rw [Node.rename, node, node]
    exact (literal_equivariant h (.text content)).bind fun _ => equivariant_pure rfl
  · -- binding
    intro d k pos level consume x
    rw [Node.rename, node, node]
    exact (queue_equivariant h ⟨level, consume, x, k⟩).bind fun _ => equivariant_pure rfl
  · -- block
    intro d k pos ns ih
    rw [Node.rename, node, node]
    exact block_equivariant_of_items h ns ih
  · -- no arguments
    intro d
    rw [Node.renameAll, arguments]
    exact equivariant_pure rfl
  · -- an argument and the rest
    intro d arg rest harg hrest
    rw [Node.renameAll, arguments, arguments]
    exact harg.bind fun _ => hrest.bind fun _ => equivariant_pure rfl
  · -- no items
    rw [Node.renameAll, items]
    exact equivariant_pure rfl

/-- `block` of renamed items gives the same term in a renamed context. -/
theorem block_equivariant (h : ρ.Faithful settings) (ns : List Node) :
    Equivariant ρ settings id (block ns) (block (Node.renameAll ρ ns)) :=
  block_equivariant_of_items h ns ((equivariant_all h).2.2 _)

end Lower

/-- `lowerAll` is equivariant. Let the names of a program and of its prelude be replaced one for one,
    so that reserved and built-in names stay and effects correspond to effects, and its texts one for
    one as well (`Faithful`). Then the program becomes the same term over the renamed literals, or
    fails at the same place with the renamed name. -/
theorem lowerAll_rename (ρ : Renaming) (settings : Settings) (h : ρ.Faithful settings)
    (file : Nat) (items : List Node) :
    (∀ p : Program, (Node.lowerAll settings file items).1 = .ok p →
      (Node.lowerAll (settings.rename ρ) file (Node.renameAll ρ items)).1 =
        .ok ⟨p.term, p.literals.map (Literal.rename ρ)⟩) ∧
    ∀ e : Unresolved, (Node.lowerAll settings file items).1 = .error e →
      ∃ span, span.start = e.span.start ∧
        (Node.lowerAll (settings.rename ρ) file (Node.renameAll ρ items)).1 =
          .error ⟨span, ρ.name e.name⟩ := by
  -- The renamed program starts in the renamed context.
  have hstart : Node.start (settings.rename ρ) file (Node.renameAll ρ items) =
      (Node.start settings file items).rename ρ := by
    rw [Node.start, Context.initial_rename h, Node.length_renameAll]
    rfl
  -- The two runs end alike, so both give a program or both fail.
  have hrun := Lower.block_equivariant h items (Node.start settings file items) rfl
  rw [Node.lowerAll_fst, Node.lowerAll_fst, hstart]
  match hr : (Lower.block items).exec (Node.start settings file items),
    hs : (Lower.block (Node.renameAll ρ items)).exec ((Node.start settings file items).rename ρ) with
  | (.ok t, c), (.ok u, d) =>
    rw [hr, hs] at hrun
    obtain ⟨rfl, rfl, -⟩ := hrun
    refine ⟨?_, nofun⟩
    intro p hp
    cases hp
    rfl
  | (.error e, c), (.error e', d) =>
    rw [hr, hs] at hrun
    obtain ⟨hname, hspan⟩ := hrun
    refine ⟨nofun, ?_⟩
    intro e₁ he₁
    cases he₁
    refine ⟨e'.span, hspan, ?_⟩
    rw [← hname]
    rfl
  | (.ok t, c), (.error e', d) => rw [hr, hs] at hrun; exact hrun.elim
  | (.error e, c), (.ok u, d) => rw [hr, hs] at hrun; exact hrun.elim

/-- `Equiv.swap` of two names that are neither reserved nor built in, both effects or neither, is
    `Faithful`. -/
theorem Renaming.faithful_swap {settings : Settings} {a b : String} {text : String → String}
    (htext : Function.Injective text)
    (hreserved : ∀ r : Reserved, r.name ≠ a ∧ r.name ≠ b)
    (hbuiltin : Builtin.ofName? a = none ∧ Builtin.ofName? b = none)
    (heffect : (Context.initial settings).isEffect a = (Context.initial settings).isEffect b) :
    Faithful ⟨Equiv.swap a b, text⟩ settings where
  name_injective := (Equiv.swap a b).injective
  text_injective := htext
  name_reserved := fun r => Equiv.swap_apply_of_ne_of_ne (hreserved r).1 (hreserved r).2
  name_builtin := by
    -- A built-in name is neither of the two.
    intro x hx
    refine Equiv.swap_apply_of_ne_of_ne ?_ ?_
    · rintro rfl
      simp [hbuiltin.1] at hx
    · rintro rfl
      simp [hbuiltin.2] at hx
  isEffect_name := by
    intro x
    show (Context.initial settings).isEffect (Equiv.swap a b x) = _
    -- The two names are both effects or neither is; others stay as they are.
    by_cases ha : x = a
    · rw [ha, Equiv.swap_apply_left, heffect]
    · by_cases hb : x = b
      · rw [hb, Equiv.swap_apply_right, heffect]
      · rw [Equiv.swap_apply_of_ne_of_ne ha hb]

/-- A name of the prelude and a bound name are swapped. -/
theorem lowerAll_rename_swap :
    let ρ : Renaming := ⟨Equiv.swap "f" "x", Equiv.swap "hi" "ho"⟩
    let settings : Settings := ⟨[(.macroName, "let"), (.ordinary, "f")], "!"⟩
    let items : List Node := [.callNamed 0 "let" [.bind 0 "x", .text 0 "hi"],
      .callNamed 0 "f" [.var 0 "x", .var 0 "print!"]]
    let t := Term.abs (.app
      (.app (.app (.var 2) (.app (.lit 2) (.lit 4))) (.app (.lit 1) (.lit 5)))
      (.abs (.app (.app (.var 2) (.var 0)) (.effect 6))))
    (Node.lowerAll settings 0 items).1 =
        .ok ⟨t, LiteralTable.reserved.toList ++ [.atom "x", .text "hi", .atom "print!"]⟩ ∧
      (Node.lowerAll (settings.rename ρ) 0 (Node.renameAll ρ items)).1 =
        .ok ⟨t, LiteralTable.reserved.toList ++ [.atom "f", .text "ho", .atom "print!"]⟩ := by
  intro ρ settings items t
  have hfaithful : ρ.Faithful settings :=
    Renaming.faithful_swap (Equiv.swap "hi" "ho").injective (by intro r; cases r <;> decide)
      (by decide) (by cbv)
  have hlower : (Node.lowerAll settings 0 items).1 =
      .ok ⟨t, LiteralTable.reserved.toList ++ [.atom "x", .text "hi", .atom "print!"]⟩ := by cbv
  refine ⟨hlower, ?_⟩
  rw [(lowerAll_rename ρ settings hfaithful 0 items).1 _ hlower]
  rfl

end Unsugar
