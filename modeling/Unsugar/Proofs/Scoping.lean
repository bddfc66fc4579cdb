import Mathlib
import Unsugar.Proofs.Preservation
import Unsugar.Proofs.Occurrence

/-!
# Lowered terms are scoped

Items are lowered from left to right while the scope grows, and the abstractions around them are built
afterwards from the right. The two agree: an item's scope opens `max 1 opened` entries, and as many
abstractions stand around it and what follows. So a lowered term reaches no further out than the scope
it was lowered in, and a program passes the check for the names of its prelude.
-/

namespace Unsugar

namespace Lower

/-- If a node is lowered at all, its term is scoped under the names in scope. -/
abbrev NodeScoped (d : Delivery) (k : NameKind) (n : Node) : Prop :=
  ∀ c, Ends (fun t _ => t.Scoped c.scope.depth) (fun _ _ => True) ((node d k n).exec c)

/-- If `arguments` are lowered at all, their terms are scoped under the names in scope. -/
abbrev ArgumentsScoped (d : Delivery) (ns : List Node) : Prop :=
  ∀ c, Ends (fun ts _ => ∀ t ∈ ts, t.Scoped c.scope.depth) (fun _ _ => True)
    ((arguments d ns).exec c)

/-- If `items` are lowered at all, each of them is scoped under the names that were open for it. -/
abbrev ItemsScoped (ns : List Node) : Prop :=
  ∀ c, Ends (fun r _ => BlockStep.ScopedFrom c.scope.depth r.1) (fun _ _ => True)
    ((items ns).exec c)

/-- `Scoped` of a term that is delivered as a value. -/
theorem scoped_value {d : Delivery} {n : Nat} {t : Term} (h : t.Scoped n) :
    (d.value t).Scoped n := by
  cases d with
  | plain => exact h
  | tagged => exact (Term.scoped_tagged _ _ _).2 h

/-- `Scoped` of a term that is delivered as a binding. -/
theorem scoped_binding {d : Delivery} {n : Nat} {t : Term} (h : t.Scoped n) :
    (d.binding t).Scoped n := by
  cases d with
  | plain => exact h
  | tagged => exact (Term.scoped_tagged _ _ _).2 h

/-- `name` in scope is a variable of that scope; built-in terms are closed and effects are leaves. -/
theorem name_scoped (span : Span) (x : String) (c : Context) :
    Ends (fun t _ => t.Scoped c.scope.depth) (fun _ _ => True) ((name span x).exec c) := by
  rw [name, exec_get_bind]
  cases hr : c.scope.resolve? x with
  | some i => exact (Term.scoped_var _ _).2 (Scope.lt_depth_of_resolve? hr)
  | none =>
    cases Builtin.ofName? x with
    | some b => exact b.scoped_term _
    | none =>
      cases he : c.isEffect x with
      | true => exact Term.scoped_effect _ _
      | false => trivial

/-- `node` of a call is scoped if its callee and its arguments are. -/
theorem call_scoped (d : Delivery) (k : NameKind) (pos : Nat) (callee : Node) (args : List Node)
    (hcallee : ∀ d k, NodeScoped d k callee) (hargs : ∀ d, ArgumentsScoped d args) :
    NodeScoped d k (.call pos callee args) := by
  intro c
  rcases structure_or_ordinary d c.scope (.call pos callee args) with ⟨rfl, h⟩ | h
  · -- structure
    rw [exec_call_structure h]
    refine ((hcallee _ _ c).and (node_framed _ _ _ c)).bind ?_
    intro head c₁ hmid
    obtain ⟨hhead, _, hscope⟩ := hmid
    refine (hargs _ c₁).bind ?_
    intro ts c₂ hts
    rw [hscope] at hts
    refine (Term.scoped_app _ _ _).2 ⟨(Term.scoped_tagged _ _ _).2 hhead, ?_⟩
    exact (Term.scoped_list _ _).2 hts
  · -- ordinary
    rw [exec_call_ordinary h]
    refine ((hcallee _ _ _).and (node_framed _ _ _ _)).bind ?_
    intro fn c₁ hmid
    obtain ⟨hfn, _, hscope⟩ := hmid
    rw [exec_noteIf_bind]
    refine (hargs _ _).bind ?_
    intro values c₂ hvalues
    rw [exec_modify_bind, ends_pure]
    refine scoped_value ((Term.scoped_appAll _ _ _).2 ⟨hfn, ?_⟩)
    intro t ht
    -- A call without arguments is applied to `Nil`.
    split at ht
    · rw [List.mem_singleton.1 ht]
      exact Term.scoped_lit _ _
    · rw [← show c₁.scope.depth = c.scope.depth by rw [hscope]]
      exact hvalues t ht

/-- `items` of one more item: an item that opens `opened` names is scoped under `max 1 opened` more
    than the block. -/
theorem items_cons_scoped (n : Node) (rest : List Node) (hn : NodeScoped .plain .ordinary n)
    (hrest : ItemsScoped rest) : ItemsScoped (n :: rest) := by
  intro c
  rw [items, exec_modifyGet_bind]
  refine ((hn _).and (node_framed _ _ _ _)).bind ?_
  intro t c₁ hmid
  obtain ⟨ht, _, hscope⟩ := hmid
  refine (hrest c₁).bind ?_
  intro r c₂ hsteps
  -- The item gave its scope back, so the rest starts where the item did.
  have hdepth : c₁.scope.depth = c.scope.depth + max 1 c.openScope.1.length := by
    rw [hscope, Context.depth_openScope, Context.openScope_fst]
  rw [← hscope, hdepth] at ht
  rw [hdepth] at hsteps
  exact ⟨ht, hsteps⟩

/-- `block` is scoped if its items are: `chain` puts as many abstractions around an item as its scope
    opened. -/
theorem block_scoped_of_items (ns : List Node) (h : ItemsScoped (itemsOrNil ns)) (c : Context) :
    Ends (fun t _ => t.Scoped c.scope.depth) (fun _ _ => True) ((block ns).exec c) := by
  rw [block_eq, exec_get_bind]
  refine (h c).bind ?_
  intro r c₁ hsteps
  exact BlockStep.scoped_chain r.1 _ hsteps

/-- All of lowering is scoped: `node`, `arguments` and `items`, by `Lower.induct`. -/
private theorem scoped_all :
    (∀ d k n, NodeScoped d k n) ∧ (∀ d ns, ArgumentsScoped d ns) ∧ ∀ ns, ItemsScoped ns := by
  refine induct NodeScoped ArgumentsScoped ItemsScoped ?_ ?_ ?_ ?_ ?_ call_scoped ?_ ?_ ?_
    items_cons_scoped
  · -- var
    intro d k pos x c
    rw [node]
    exact (name_scoped _ x c).bind fun t _ ht => scoped_value ht
  · -- atom
    intro d k pos x c
    rw [node]
    exact scoped_value (Term.scoped_lit _ _)
  · -- text
    intro d k pos content c
    rw [node]
    exact scoped_value (Term.scoped_lit _ _)
  · -- binding
    intro d k pos level consume x c
    rw [node]
    exact scoped_binding (Term.scoped_lit _ _)
  · -- block
    intro d k pos ns ih c
    rw [node]
    exact block_scoped_of_items ns ih c
  · -- no arguments
    intro d c
    rw [arguments]
    exact List.forall_mem_nil _
  · -- an argument and the rest
    intro d arg rest harg hrest c
    rw [arguments]
    refine ((harg c).and (node_framed _ _ _ c)).bind ?_
    intro t c₁ hmid
    obtain ⟨ht, _, hscope⟩ := hmid
    refine (hrest c₁).bind ?_
    intro ts c₂ hts
    rw [hscope] at hts
    exact List.forall_mem_cons.2 ⟨ht, hts⟩
  · -- no items
    intro c
    rw [items]
    trivial

/-- `node` is scoped under the names in scope. -/
theorem node_scoped (d : Delivery) (k : NameKind) (n : Node) (c : Context) :
    Ends (fun t _ => t.Scoped c.scope.depth) (fun _ _ => True) ((node d k n).exec c) :=
  scoped_all.1 d k n c

/-- `block` is scoped under the names in scope. -/
theorem block_scoped (ns : List Node) (c : Context) :
    Ends (fun t _ => t.Scoped c.scope.depth) (fun _ _ => True) ((block ns).exec c) :=
  block_scoped_of_items ns (scoped_all.2.2 _) c

/-- `block` has at least one item, and so at least one abstraction. -/
theorem block_isAbs (ns : List Node) (c : Context) :
    Ends (fun t _ => t.isAbs) (fun _ _ => True) ((block ns).exec c) := by
  rw [block_eq, exec_get_bind]
  refine (items_length _ c).bind ?_
  intro r c₁ hlength
  exact BlockStep.isAbs_chain (ne_nil_of_length_itemsOrNil hlength)

end Lower

/-- Scope soundness of `value`, `wrapped`, `block` and `lowerAll`. Whatever the context, a term that
    lowering gives reaches no further out than the scope at the start. So every program is an
    abstraction that `check` accepts under the names of its prelude. -/
theorem lowerAll_scoped :
    (∀ (c : Context) (n : Node) (t : Term) (c' : Context),
      (Lower.value n).exec c = (.ok t, c') → ∀ j, t.Free j → j < c.scope.depth) ∧
    (∀ (c : Context) (n : Node) (t : Term) (c' : Context),
      (Lower.wrapped n).exec c = (.ok t, c') → ∀ j, t.Free j → j < c.scope.depth) ∧
    (∀ (c : Context) (items : List Node) (t : Term) (c' : Context),
      (Lower.block items).exec c = (.ok t, c') → ∀ j, t.Free j → j < c.scope.depth) ∧
    ∀ (settings : Settings) (file : Nat) (items : List Node) (p : Program),
      (Node.lowerAll settings file items).1 = .ok p →
        p.term.isAbs ∧ p.term.check settings.prelude.length = .ok () := by
  refine ⟨?_, ?_, ?_, ?_⟩
  · -- values
    intro c n t c' h
    exact (Lower.node_scoped .plain .ordinary n c).of_ok h
  · -- arguments of a macro
    intro c n t c' h
    exact (Lower.node_scoped .tagged .ordinary n c).of_ok h
  · -- blocks
    intro c items t c' h
    exact (Lower.block_scoped items c).of_ok h
  · -- programs, which start in the scope of their prelude
    intro settings file items p h
    obtain ⟨c, hrun, -⟩ := Node.lowerAll_eq_ok_iff.1 h
    have habs : p.term.isAbs := (Lower.block_isAbs items _).of_ok hrun
    have hscoped : p.term.Scoped (Node.start settings file items).scope.depth :=
      (Lower.block_scoped items _).of_ok hrun
    have hdepth : (Node.start settings file items).scope.depth = settings.prelude.length :=
      Context.depth_initial settings
    rw [hdepth] at hscoped
    exact ⟨habs, (Term.check_eq_ok_iff _ _).2 ⟨habs, hscoped⟩⟩

/-- A definition of two levels: its name is opened for the body and again for what follows. -/
theorem lowerAll_scoped_definition :
    let settings : Settings := ⟨[(.macroName, "let"), (.ordinary, "g")], "!"⟩
    let items : List Node := [
      .callNamed 0 "let" [.call 0 (.bindLevel 0 2 "f") [.bind 0 "n"],
        .block 0 [.callNamed 0 "f" [.var 0 "n"], .var 0 "g"]],
      .callNamed 0 "f" [.var 0 "g"]]
    let program : Program :=
      ⟨.abs (.app (.app (.app (.var 2)
          (.app (.app (.lit 3) (.app (.lit 2) (.lit 4))) (.app (.app (.lit 2) (.lit 5)) (.lit 0))))
          (.abs (.abs (.app (.abs (.var 4)) (.app (.var 1) (.var 0))))))
          (.abs (.app (.var 0) (.var 2)))),
        [.atom "Nil", .atom "Value", .atom "Binding", .atom "Call", .atom "f", .atom "n"]⟩
    (Node.lowerAll settings 0 items).1 = .ok program ∧ program.term.check 2 = .ok () := by
  intro settings items program
  have hlower : (Node.lowerAll settings 0 items).1 = .ok program := by cbv
  exact ⟨hlower, (lowerAll_scoped.2.2.2 settings 0 items program hlower).2⟩

end Unsugar
