import Mathlib
import Unsugar.Proofs.Preservation
import Unsugar.Proofs.Named

/-!
# Indices point where names do

Lowering is the named pass followed by the textbook step to indices. The two run side by side in the
same contexts; at every point the binders around the named term, innermost first, are the names of the
scope. So an index that stands for a name leads to the abstraction of the innermost binding of that
name, whatever the order in which scopes were filled and abstractions built.

## Key results

- `NamedStep.Resolves.chain`: the step to indices goes through the fold of a block
- `LowerNamed.block_resolves`: a block and its named form
- `lowerAllNamed_toTerm`: whole programs
-/

namespace Unsugar

/-- The names of the entries of a scope, innermost first. -/
def Scope.names (s : Scope) : List (Option String) := s.entries.map ScopeEntry.name?

/-- `resolve?` is the distance to the nearest entry that carries the name. -/
theorem Scope.resolve?_eq_findIdx? (s : Scope) (x : String) :
    s.resolve? x = s.names.findIdx? (· = some x) := by
  rw [resolve?, names, List.findIdx?_map]
  rfl

namespace NamedTerm

variable {env : List (Option String)}

/-! ## The step to indices through assembled terms -/

theorem toTerm?_app {fn arg : NamedTerm} {fn' arg' : Term} (hfn : fn.toTerm? env = some fn')
    (harg : arg.toTerm? env = some arg') : (app fn arg).toTerm? env = some (.app fn' arg') := by
  rw [toTerm?, hfn, harg]
  rfl

theorem toTerm?_tagged {r : Reserved} {t : NamedTerm} {t' : Term} (h : t.toTerm? env = some t') :
    (t.tagged r).toTerm? env = some (t'.tagged r) :=
  toTerm?_app rfl h

/-- `toTerm?` of a term that is delivered as a value. -/
theorem toTerm?_value {d : Delivery} {t : NamedTerm} {t' : Term} (h : t.toTerm? env = some t') :
    (d.namedValue t).toTerm? env = some (d.value t') := by
  cases d with
  | plain => exact h
  | tagged => exact toTerm?_tagged h

/-- `toTerm?` of a term that is delivered as a binding. -/
theorem toTerm?_binding {d : Delivery} {t : NamedTerm} {t' : Term} (h : t.toTerm? env = some t') :
    (d.namedBinding t).toTerm? env = some (d.binding t') := by
  cases d with
  | plain => exact h
  | tagged => exact toTerm?_tagged h

/-- `toTerm?` of `list`. By induction on the members. -/
theorem toTerm?_list {ts : List NamedTerm} {ts' : List Term}
    (h : ts.map (toTerm? env) = ts'.map some) : (list ts).toTerm? env = some (Term.list ts') := by
  induction ts generalizing ts' with
  | nil =>
    cases ts' with
    | nil => rfl
    | cons t' rest' => cases h
  | cons t rest ih =>
    cases ts' with
    | nil => cases h
    | cons t' rest' =>
      obtain ⟨ht, hrest⟩ := List.cons.inj h
      exact toTerm?_app ht (ih hrest)

/-- `toTerm?` of `appAll`. By induction on the arguments, for any function. -/
theorem toTerm?_appAll {fn : NamedTerm} {fn' : Term} {ts : List NamedTerm} {ts' : List Term}
    (hfn : fn.toTerm? env = some fn') (h : ts.map (toTerm? env) = ts'.map some) :
    (fn.appAll ts).toTerm? env = some (fn'.appAll ts') := by
  induction ts generalizing fn fn' ts' with
  | nil =>
    cases ts' with
    | nil => exact hfn
    | cons t' rest' => cases h
  | cons t rest ih =>
    cases ts' with
    | nil => cases h
    | cons t' rest' =>
      obtain ⟨ht, hrest⟩ := List.cons.inj h
      show ((app fn t).appAll rest).toTerm? env = some ((Term.app fn' t').appAll rest')
      exact ih (toTerm?_app hfn ht) hrest

/-- `toTerm?` of `abstracted`: the binders come to stand before the outer ones, the last one innermost.
    -/
theorem toTerm?_abstracted {t : NamedTerm} {t' : Term} (binders : List (Option String))
    (h : t.toTerm? (binders.reverse ++ env) = some t') :
    (t.abstracted binders).toTerm? env = some (t'.abstracted binders.length) := by
  induction binders generalizing env with
  | nil => exact h
  | cons b rest ih =>
    rw [List.reverse_cons, List.append_assoc, List.singleton_append] at h
    have hrest := ih h
    show ((t.abstracted rest).toTerm? (b :: env)).map Term.abs = _
    rw [hrest]
    rfl

end NamedTerm

namespace NamedStep

/-- A step has as many `binders` as its scope opened entries. -/
theorem length_binders (step : NamedStep) : step.binders.length = max 1 step.opened.length := by
  unfold binders
  cases step.opened with
  | nil => rfl
  | cons x rest => simp

/-- The steps of a block are those of its named form, each under the binders of the steps up to it. -/
inductive Resolves : List (Option String) → List NamedStep → List BlockStep → Prop where
  | nil {env : List (Option String)} : Resolves env [] []
  | cons {env : List (Option String)} {step : NamedStep} {t : Term} {rest : List NamedStep}
      {rest' : List BlockStep} (ht : step.term.toTerm? (step.binders.reverse ++ env) = some t)
      (hrest : Resolves (step.binders.reverse ++ env) rest rest') :
      Resolves env (step :: rest) (⟨step.opened.length, t⟩ :: rest')

/-- `Resolves` keeps how many names the items opened. -/
theorem Resolves.map_opened {env : List (Option String)} {steps : List NamedStep}
    {steps' : List BlockStep} (h : Resolves env steps steps') :
    steps'.map BlockStep.opened = steps.map (·.opened.length) := by
  induction h with
  | nil => rfl
  | cons ht hrest ih => rw [List.map_cons, List.map_cons, ih]

/-- `toTerm?` goes through `chain`, the fold of a block. By induction on the steps. -/
theorem Resolves.chain {env : List (Option String)} {steps : List NamedStep}
    {steps' : List BlockStep} (h : Resolves env steps steps') :
    (NamedStep.chain steps).toTerm? env = some (BlockStep.chain steps') := by
  induction h with
  | nil => rfl
  | @cons env step t rest rest' ht hrest ih =>
    cases hrest with
    | nil =>
      rw [NamedStep.chain, BlockStep.chain, ← length_binders]
      exact NamedTerm.toTerm?_abstracted _ ht
    | @cons _ next u more more' hu hmore =>
      rw [NamedStep.chain, BlockStep.chain, ← length_binders]
      apply NamedTerm.toTerm?_abstracted
      -- Which of the two is applied to the other is read off the same count in both passes.
      have hcount : next.opened.isEmpty = true ↔ next.opened.length = 0 := by
        rw [List.isEmpty_iff, List.length_eq_zero_iff]
      by_cases hopened : next.opened.length = 0
      · rw [if_pos (hcount.2 hopened), if_pos hopened]
        exact NamedTerm.toTerm?_app ih ht
      · rw [if_neg (mt hcount.1 hopened), if_neg hopened]
        exact NamedTerm.toTerm?_app ht ih

end NamedStep

/-! ## Running side by side -/

/-- `openScope` adds the `binders` of the step to the names of the scope, innermost first. -/
theorem Scope.names_openScope (c : Context) (t : NamedTerm) :
    c.openScope.2.scope.names =
      (NamedStep.binders ⟨c.pending.map Pending.name, t⟩).reverse ++ c.scope.names := by
  rw [Context.scope_openScope, Scope.names, List.map_append, Scope.names]
  congr 1
  cases c.pending with
  | nil => rfl
  | cons b rest =>
    simp [Pending.openedEntries, NamedStep.binders, Pending.entry, ScopeEntry.named]

namespace LowerNamed

open Lower

/-- A node ends alike in both passes: in the same context, with the term that the named one becomes in
    the scope at the start. -/
abbrev NodeResolves (d : Delivery) (k : NameKind) (n : Node) : Prop :=
  ∀ c, EndAlike (fun t u c₁ c₂ => c₁ = c₂ ∧ u.toTerm? c.scope.names = some t) Eq
    ((Lower.node d k n).exec c) ((node d k n).exec c)

/-- `arguments` end alike in both passes. -/
abbrev ArgumentsResolve (d : Delivery) (ns : List Node) : Prop :=
  ∀ c, EndAlike
    (fun ts us c₁ c₂ => c₁ = c₂ ∧ us.map (NamedTerm.toTerm? c.scope.names) = ts.map some) Eq
    ((Lower.arguments d ns).exec c) ((arguments d ns).exec c)

/-- `items` end alike in both passes: the steps resolve in the names of the scope at the start. -/
abbrev ItemsResolve (ns : List Node) : Prop :=
  ∀ c, EndAlike
    (fun r s c₁ c₂ => c₁ = c₂ ∧ s.2 = r.2 ∧ NamedStep.Resolves c.scope.names s.1 r.1) Eq
    ((Lower.items ns).exec c) ((items ns).exec c)

/-- `name` ends alike in both passes: an index is the place of its name among the names of the scope.
    -/
theorem name_resolves (span : Span) (x : String) (c : Context) :
    EndAlike (fun t u c₁ c₂ => c₁ = c₂ ∧ u.toTerm? c.scope.names = some t) Eq
      ((Lower.name span x).exec c) ((name span x).exec c) := by
  rw [Lower.name, name, exec_get_bind, exec_get_bind]
  have hx := c.scope.resolve?_eq_findIdx? x
  cases hr : c.scope.resolve? x with
  | some i =>
    -- The index is the place of the name among the names around.
    refine ⟨rfl, ?_⟩
    rw [hr] at hx
    rw [NamedTerm.toTerm?, ← hx]
    rfl
  | none =>
    cases Builtin.ofName? x with
    | some b => exact ⟨rfl, rfl⟩
    -- An effect in both passes, or a failure in both.
    | none => exact endAlike_ite (fun _ => ⟨rfl, rfl⟩) (fun _ => rfl)

/-- `node` of a call ends alike in both passes, since both examine it in the same scope. -/
theorem call_resolves (d : Delivery) (k : NameKind) (pos : Nat) (callee : Node) (args : List Node)
    (hcallee : ∀ d k, NodeResolves d k callee) (hargs : ∀ d, ArgumentsResolve d args) :
    NodeResolves d k (.call pos callee args) := by
  intro c
  rw [Lower.node, node, exec_get_bind, exec_get_bind]
  refine endAlike_ite (fun _ => ?_) (fun _ => ?_)
  · -- structure
    refine ((hcallee _ _ c).and_left (node_framed _ _ _ c)).bind ?_
    intro head head' c₁ c₂ hmid
    obtain ⟨⟨rfl, hhead⟩, -, hscope⟩ := hmid
    refine (hargs _ c₁).bind ?_
    intro ts us c₃ c₄ hmid
    obtain ⟨rfl, hts⟩ := hmid
    rw [hscope] at hts
    exact ⟨rfl, NamedTerm.toTerm?_app (NamedTerm.toTerm?_tagged hhead) (NamedTerm.toTerm?_list hts)⟩
  · -- ordinary
    rw [exec_modifyGet_bind, exec_modifyGet_bind]
    refine ((hcallee _ _ _).and_left (node_framed _ _ _ _)).bind ?_
    intro fn fn' c₁ c₂ hmid
    obtain ⟨⟨rfl, hfn⟩, -, hscope⟩ := hmid
    rw [exec_noteIf_bind, exec_noteIf_bind]
    refine (hargs _ _).bind ?_
    intro values values' c₃ c₄ hmid
    obtain ⟨rfl, hvalues⟩ := hmid
    rw [exec_modify_bind, exec_modify_bind]
    refine ⟨rfl, NamedTerm.toTerm?_value (NamedTerm.toTerm?_appAll hfn ?_)⟩
    cases args with
    | nil => rfl
    | cons arg rest =>
      have hnames : c.scope.names = c₁.scope.names := by rw [hscope]; rfl
      rw [hnames]
      exact hvalues

/-- `items` of one more item end alike in both passes. -/
theorem items_cons_resolve (n : Node) (rest : List Node) (hn : NodeResolves .plain .ordinary n)
    (hrest : ItemsResolve rest) : ItemsResolve (n :: rest) := by
  intro c
  rw [Lower.items, items, exec_modifyGet_bind, exec_modifyGet_bind]
  refine ((hn _).and_left (node_framed _ _ _ _)).bind ?_
  intro t u c₁ c₂ hmid
  obtain ⟨⟨rfl, ht⟩, -, hscope⟩ := hmid
  refine (hrest c₁).bind ?_
  intro r s c₃ c₄ hmid
  obtain ⟨steps, deferred⟩ := r
  obtain ⟨steps', deferred'⟩ := s
  obtain ⟨rfl, rfl, hsteps⟩ := hmid
  -- The item's scope has the names that the item opened, then those of the block.
  rw [Scope.names_openScope c u] at ht
  rw [hscope, Scope.names_openScope c u] at hsteps
  refine ⟨rfl, rfl, ?_⟩
  have hlength : c.openScope.1.length = (c.openScope.1.map Pending.name).length := by
    rw [List.length_map]
  rw [hlength, Context.openScope_fst]
  exact .cons ht hsteps

/-- `block` ends alike in both passes if its items do: both close the same scopes and report the same
    counts. -/
theorem block_resolves_of_items (ns : List Node) (h : ItemsResolve (itemsOrNil ns)) (c : Context) :
    EndAlike (fun t u c₁ c₂ => c₁ = c₂ ∧ u.toTerm? c.scope.names = some t) Eq
      ((Lower.block ns).exec c) ((block ns).exec c) := by
  rw [Lower.block_eq, block_eq, exec_get_bind, exec_get_bind]
  refine (h c).bind ?_
  intro r s c₁ c₂ hmid
  obtain ⟨steps, deferred⟩ := r
  obtain ⟨steps', deferred'⟩ := s
  obtain ⟨rfl, rfl, hsteps⟩ := hmid
  -- The passes report the same numbers of opened names.
  have hopened : steps.map BlockStep.opened = steps'.map (·.opened.length) := hsteps.map_opened
  show EndAlike _ _ ((Lower.closeBlock c.scope.depth steps deferred').exec c₁)
    ((closeBlock c.scope.depth steps' deferred').exec c₁)
  refine ⟨?_, hsteps.chain⟩
  rw [hopened]

/-- All of lowering ends alike in both passes: `node`, `arguments` and `items`, by `Lower.induct`. -/
private theorem resolves_all :
    (∀ d k n, NodeResolves d k n) ∧ (∀ d ns, ArgumentsResolve d ns) ∧ ∀ ns, ItemsResolve ns := by
  refine induct NodeResolves ArgumentsResolve ItemsResolve ?_ ?_ ?_ ?_ ?_ call_resolves ?_ ?_ ?_
    items_cons_resolve
  · -- var
    intro d k pos x c
    rw [Lower.node, node]
    refine (name_resolves _ x c).bind ?_
    intro t u c₁ c₂ hmid
    exact ⟨hmid.1, NamedTerm.toTerm?_value hmid.2⟩
  · -- atom
    intro d k pos x c
    rw [Lower.node, node]
    exact ⟨rfl, NamedTerm.toTerm?_value rfl⟩
  · -- text
    intro d k pos content c
    rw [Lower.node, node]
    exact ⟨rfl, NamedTerm.toTerm?_value rfl⟩
  · -- binding
    intro d k pos level consume x c
    rw [Lower.node, node]
    exact ⟨rfl, NamedTerm.toTerm?_binding rfl⟩
  · -- block
    intro d k pos ns ih c
    rw [Lower.node, node]
    exact block_resolves_of_items ns ih c
  · -- no arguments
    intro d c
    rw [Lower.arguments, arguments]
    exact ⟨rfl, rfl⟩
  · -- an argument and the rest
    intro d arg rest harg hrest c
    rw [Lower.arguments, arguments]
    refine ((harg c).and_left (node_framed _ _ _ c)).bind ?_
    intro t u c₁ c₂ hmid
    obtain ⟨⟨rfl, ht⟩, -, hscope⟩ := hmid
    refine (hrest c₁).bind ?_
    intro ts us c₃ c₄ hmid
    obtain ⟨rfl, hts⟩ := hmid
    rw [hscope] at hts
    refine ⟨rfl, ?_⟩
    rw [List.map_cons, List.map_cons, ht, hts]
  · -- no items
    intro c
    rw [Lower.items, items]
    exact ⟨rfl, rfl, .nil⟩

/-- `block` ends alike in both passes. -/
theorem block_resolves (ns : List Node) (c : Context) :
    EndAlike (fun t u c₁ c₂ => c₁ = c₂ ∧ u.toTerm? c.scope.names = some t) Eq
      ((Lower.block ns).exec c) ((block ns).exec c) :=
  block_resolves_of_items ns (resolves_all.2.2 _) c

end LowerNamed

/-- `lowerAll` is `lowerAllNamed` followed by `toTerm?`. Lowering a program succeeds exactly when the
    named pass does, and gives exactly the nameless form of the named term, under the names of the
    prelude: so an index stands for the innermost binding of its name. When they fail, both report the
    same name. -/
theorem lowerAllNamed_toTerm (settings : Settings) (file : Nat) (items : List Node) :
    ((∃ p, (Node.lowerAll settings file items).1 = .ok p) ↔
      ∃ q, Node.lowerAllNamed settings file items = .ok q) ∧
    (∀ (p : Program) (t : NamedTerm) (literals : List Literal),
      (Node.lowerAll settings file items).1 = .ok p →
      Node.lowerAllNamed settings file items = .ok (t, literals) →
        t.toTerm? (settings.prelude.map fun entry => some entry.2).reverse = some p.term ∧
          literals = p.literals) ∧
    ∀ e, (Node.lowerAll settings file items).1 = .error e ↔
      Node.lowerAllNamed settings file items = .error e := by
  have h := LowerNamed.block_resolves items (Node.start settings file items)
  have hnames : (Node.start settings file items).scope.names =
      (settings.prelude.map fun entry => some entry.2).reverse := by
    show (Context.initial settings).scope.names = _
    rw [Context.scope_initial, Scope.names, List.map_reverse, List.map_map]
    rfl
  rw [hnames] at h
  rw [Node.lowerAll_fst, Node.lowerAllNamed]
  -- The two runs end alike, so only two of the four cases remain.
  match hc : (Lower.block items).exec (Node.start settings file items),
    hd : (LowerNamed.block items).exec (Node.start settings file items) with
  | (.ok t, c), (.ok u, d) =>
    rw [hc, hd] at h
    obtain ⟨rfl, ht⟩ := h
    refine ⟨⟨fun _ => ⟨_, rfl⟩, fun _ => ⟨_, rfl⟩⟩, ?_, fun e => ⟨nofun, nofun⟩⟩
    intro p u' literals hp hu
    cases hp
    cases hu
    exact ⟨ht, rfl⟩
  | (.error e, c), (.error e', d) =>
    rw [hc, hd] at h
    have he : e = e' := h
    subst he
    exact ⟨⟨nofun, nofun⟩, nofun, fun x => by simp [Except.map]⟩
  | (.ok t, c), (.error e', d) => rw [hc, hd] at h; exact h.elim
  | (.error e, c), (.ok u, d) => rw [hc, hd] at h; exact h.elim

/-- Both names are bound a second time, and the last item means the inner ones. -/
theorem lowerAllNamed_toTerm_shadowed :
    let settings : Settings := ⟨[(.macroName, "let"), (.ordinary, "f")], "!"⟩
    let items : List Node := [.callNamed 0 "let" [.bindLevel 0 2 "a", .var 0 "f"],
      .callNamed 0 "f" [.bind 0 "f", .bind 0 "a"], .callNamed 0 "f" [.var 0 "a"]]
    let program : Program :=
      ⟨.abs (.app (.app (.app (.var 2) (.app (.lit 2) (.lit 4))) (.app (.lit 1) (.var 1)))
          (.abs (.app (.app (.app (.var 2) (.lit 5)) (.lit 4))
            (.abs (.abs (.app (.var 1) (.var 0))))))),
        [.atom "Nil", .atom "Value", .atom "Binding", .atom "Call", .atom "a", .atom "f"]⟩
    let named : NamedTerm :=
      .abs none (.app
        (.app (.app (.name "let") (.app (.lit 2) (.lit 4))) (.app (.lit 1) (.name "f")))
        (.abs (some "a") (.app (.app (.app (.name "f") (.lit 5)) (.lit 4))
          (.abs (some "f") (.abs (some "a") (.app (.name "f") (.name "a")))))))
    (Node.lowerAll settings 0 items).1 = .ok program ∧
      Node.lowerAllNamed settings 0 items = .ok (named, program.literals) ∧
      named.toTerm? [some "f", some "let"] = some program.term := by
  intro settings items program named
  have hlower : (Node.lowerAll settings 0 items).1 = .ok program := by cbv
  have hnamed : Node.lowerAllNamed settings 0 items = .ok (named, program.literals) := by cbv
  exact ⟨hlower, hnamed,
    ((lowerAllNamed_toTerm settings 0 items).2.1 _ _ _ hlower hnamed).1⟩

end Unsugar
