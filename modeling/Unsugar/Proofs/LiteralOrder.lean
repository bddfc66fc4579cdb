import Mathlib
import Unsugar.Proofs.Literals

/-!
# The order of the literals

The literals of a program stand in its table in the order in which its source is read: a callee before
its arguments, arguments and items from left to right. Terms are put together in another order, since a
block may put a later item first and lists are built from their end, but literals are interned when a node
is met. `Lower.visits` tells which nodes are met in a run and in which context each of them is, so that a
name can be asked whether it is an effect there.

## Key results

- `LiteralTable.toList_internAll`: interning a sequence keeps the first occurrences
- `Lower.map_node_visits`: nodes are met in the order of the source
- `Lower.block_follows`: what a block interns, and its effects
- `lowerAll_literals_eq_eraseDups`: the table of a program
-/

namespace Unsugar

/-! ## Interning a sequence -/

namespace LiteralTable

/-- Interns literals one after the other. -/
def internAll (t : LiteralTable) (ls : List Literal) : LiteralTable :=
  ls.foldl (fun t l => (t.intern l).2) t

theorem internAll_append (t : LiteralTable) (ls ls' : List Literal) :
    t.internAll (ls ++ ls') = (t.internAll ls).internAll ls' :=
  List.foldl_append

/-- `intern` of a literal that the table has already leaves the table as it is. -/
theorem intern_of_mem {t : LiteralTable} {l : Literal} (h : l ∈ t.toList) : (t.intern l).2 = t := by
  have hlist := t.toList_intern l
  rw [if_pos h] at hlist
  cases ht : (t.intern l).2
  rw [ht] at hlist
  exact congrArg LiteralTable.mk hlist

/-- `eraseDups` of a list without duplicates. -/
theorem eraseDups_of_nodup {ls : List Literal} (h : ls.Nodup) : ls.eraseDups = ls := by
  induction ls with
  | nil => rfl
  | cons l rest ih =>
    obtain ⟨hl, hrest⟩ := List.nodup_cons.1 h
    have hfilter : rest.filter (fun l' => !l' == l) = rest := by
      rw [List.filter_eq_self]
      intro l' hl'
      simpa using fun heq : l' = l => hl (heq ▸ hl')
    rw [List.eraseDups_cons, hfilter, ih hrest]

/-- `internAll` adds the first occurrence of each literal that is new. By induction on the literals. -/
theorem toList_internAll {t : LiteralTable} (h : t.toList.Nodup) (ls : List Literal) :
    (t.internAll ls).toList = (t.toList ++ ls).eraseDups := by
  induction ls generalizing t with
  | nil =>
    rw [List.append_nil]
    exact (eraseDups_of_nodup h).symm
  | cons l rest ih =>
    have hstep : t.internAll (l :: rest) = (t.intern l).2.internAll rest := rfl
    rw [hstep, ih (nodup_toList_intern h l), toList_intern]
    split
    · next hl =>
      -- A literal that is there already is dropped on both sides.
      have hremove : (l :: rest).removeAll t.toList = rest.removeAll t.toList := by
        simp [List.removeAll, hl]
      rw [List.eraseDups_append, List.eraseDups_append, hremove]
    · rw [List.append_assoc, List.singleton_append]

end LiteralTable

/-! ## The order of the source -/

namespace Node

mutual

/-- A node and those in it, in the order of the source: a callee before its arguments. -/
def preorder : Node → List Node
  | .block pos items => .block pos items :: preorderAll items
  | .call pos callee args => .call pos callee args :: (callee.preorder ++ preorderAll args)
  | n => [n]

/-- Several nodes and those in them. -/
def preorderAll : List Node → List Node
  | [] => []
  | n :: rest => n.preorder ++ preorderAll rest

end

end Node

/-- Whether a term is an effect. -/
def Term.isEffect : Term → Bool
  | .effect _ => true
  | _ => false

/-- A node that is met in a run, and the context in which it is met. -/
structure Visit where
  node : Node
  context : Context

namespace Visit

/-- The effect that a name is lowered to. -/
def effect? (v : Visit) : Option Term :=
  match v.node with
  | .var .. =>
    match ((Lower.value v.node).exec v.context).1 with
    | .ok (.effect i) => some (.effect i)
    | _ => none
  | _ => none

/-- The literal of a node: an atom, a text, the name of a binding, the name of an effect. -/
def literal? (v : Visit) : Option Literal :=
  match v.node with
  | .atom _ name | .binding _ _ _ name => some (.atom name)
  | .text _ content => some (.text content)
  | .var _ name => v.effect?.map fun _ => .atom name
  | .block .. | .call .. => none

end Visit

namespace Lower

mutual

/-- What is met when a node is lowered from a context. -/
def visits (d : Delivery) (c : Context) : Node → List Visit
  | .block pos items => ⟨.block pos items, c⟩ :: itemVisits c items
  | .call pos callee args =>
    let kind := Node.definitionKind args
    ⟨.call pos callee args, c⟩ ::
      if d = .tagged && c.scope.hasBindings (.call pos callee args) then
        visits .tagged c callee ++
          argumentVisits .tagged ((node .tagged kind callee).exec c).2 args
      else
        let isMacro := c.scope.isMacro callee
        let c₁ := ((node .plain kind callee).exec { c with pending := [] }).2
        let called := Event.macroCall callee.pos args.length
        visits .plain { c with pending := [] } callee ++
          argumentVisits (if isMacro then .tagged else .plain)
            { c₁ with events := if isMacro then called :: c₁.events else c₁.events } args
  | n => [⟨n, c⟩]

/-- What is met when arguments are lowered from a context. -/
def argumentVisits (d : Delivery) (c : Context) : List Node → List Visit
  | [] => []
  | arg :: rest =>
    visits d c arg ++ argumentVisits d ((node d .ordinary arg).exec c).2 rest

/-- What is met when items are lowered from a context. -/
def itemVisits (c : Context) : List Node → List Visit
  | [] => []
  | item :: rest =>
    let opened := c.openScope.2
    visits .plain opened item ++ itemVisits ((node .plain .ordinary item).exec opened).2 rest

end

/-! ## Nodes are met in the order of the source -/

mutual

/-- `visits` meets the nodes in the order of the source, whatever the delivery. By recursion on the
    node. -/
theorem map_node_visits (d : Delivery) (c : Context) :
    (n : Node) → (visits d c n).map Visit.node = n.preorder
  | .var .. | .atom .. | .text .. | .binding .. => by simp [visits, Node.preorder]
  | .block pos items => by
    simp only [visits, Node.preorder, List.map_cons, map_node_itemVisits c items]
  | .call pos callee args => by
    simp only [visits, Node.preorder, List.map_cons]
    split <;> simp only [List.map_append, map_node_visits _ _ callee, map_node_argumentVisits _ _ args]

/-- `argumentVisits` meets the nodes in the order of the source. -/
theorem map_node_argumentVisits (d : Delivery) (c : Context) :
    (ns : List Node) → (argumentVisits d c ns).map Visit.node = Node.preorderAll ns
  | [] => rfl
  | n :: rest => by
    simp only [argumentVisits, Node.preorderAll, List.map_append, map_node_visits d c n,
      map_node_argumentVisits d _ rest]

/-- `itemVisits` meets the nodes in the order of the source. -/
theorem map_node_itemVisits (c : Context) :
    (ns : List Node) → (itemVisits c ns).map Visit.node = Node.preorderAll ns
  | [] => rfl
  | n :: rest => by
    simp only [itemVisits, Node.preorderAll, List.map_append, map_node_visits .plain _ n,
      map_node_itemVisits _ rest]

end

/-! ## Literals and effects of a run -/

/-- Between two tables the literals of the visits are interned, and the effects among the leaves are those
    of the visits. -/
structure Follows (t t' : LiteralTable) (vs : List Visit) (leaves : List Term) : Prop where
  literals : t' = t.internAll (vs.filterMap Visit.literal?)
  effects : (leaves.filter Term.isEffect).Perm (vs.filterMap Visit.effect?)

section Follows

variable {t t₁ t₂ : LiteralTable} {vs vs₁ vs₂ : List Visit} {ls ls₁ ls₂ : List Term}

theorem follows_nil (t : LiteralTable) : Follows t t [] [] := ⟨rfl, .nil⟩

/-- `Follows` of two parts of a run one after the other. -/
theorem Follows.append (h₁ : Follows t t₁ vs₁ ls₁) (h₂ : Follows t₁ t₂ vs₂ ls₂) :
    Follows t t₂ (vs₁ ++ vs₂) (ls₁ ++ ls₂) where
  literals := by
    rw [List.filterMap_append, LiteralTable.internAll_append, ← h₁.literals, h₂.literals]
  effects := by
    rw [List.filter_append, List.filterMap_append]
    exact h₁.effects.append h₂.effects

/-- `Follows` does not depend on how the leaves are put together, as long as no effect is lost or
    added. -/
theorem Follows.rearrange (h : Follows t t₁ vs ls₁)
    (hperm : (ls₂.filter Term.isEffect).Perm (ls₁.filter Term.isEffect)) :
    Follows t t₁ vs ls₂ :=
  ⟨h.literals, hperm.trans h.effects⟩

/-- `Follows` with a visit in front that has no literal. -/
theorem Follows.visit (h : Follows t t₁ vs ls) {v : Visit} (hliteral : v.literal? = none)
    (heffect : v.effect? = none) : Follows t t₁ (v :: vs) ls := by
  refine ⟨?_, ?_⟩
  · rw [List.filterMap_cons_none hliteral]
    exact h.literals
  · rw [List.filterMap_cons_none heffect]
    exact h.effects

/-- `Follows` of a term that is delivered as a value: a tag is no effect. -/
theorem Follows.value {u : Term} (h : Follows t t₁ vs u.leaves) (d : Delivery) :
    Follows t t₁ vs (d.value u).leaves := by
  cases d with
  | plain => exact h
  | tagged => exact h.rearrange (.refl _)

/-- `Follows` of a term that is delivered as a binding: a tag is no effect. -/
theorem Follows.binding {u : Term} (h : Follows t t₁ vs u.leaves) (d : Delivery) :
    Follows t t₁ vs (d.binding u).leaves := by
  cases d with
  | plain => exact h
  | tagged => exact h.rearrange (.refl _)

end Follows

/-! ## Leaves -/

/-- `Follows` of a node whose literal is interned and is no effect. -/
theorem follows_literal (c : Context) {n : Node} {l : Literal}
    (hliteral : (Visit.mk n c).literal? = some l) (heffect : (Visit.mk n c).effect? = none) :
    Follows c.literals (c.intern l).2.literals [⟨n, c⟩] [.lit (c.intern l).1] where
  literals := by
    rw [List.filterMap_cons_some hliteral]
    rfl
  effects := by
    rw [List.filterMap_cons_none heffect]
    exact .nil

/-- `Follows` of variables, which are no effects. -/
theorem follows_vars (t : LiteralTable) {ls : List Term} (h : ∀ s ∈ ls, ∃ i, s = .var i) :
    Follows t t [] ls := by
  refine ⟨rfl, ?_⟩
  rw [List.filter_eq_nil_iff.2]
  · exact .nil
  · intro s hs
    obtain ⟨i, rfl⟩ := h s hs
    simp [Term.isEffect]

/-- `node` of a name: if it becomes an effect it is interned as an atom, and no other name is. -/
theorem var_follows (d : Delivery) (k : NameKind) (pos : Nat) (x : String) {c c' : Context} {t : Term}
    (h : (node d k (.var pos x)).exec c = (.ok t, c')) :
    Follows c.literals c'.literals [⟨.var pos x, c⟩] t.leaves := by
  rw [node] at h
  obtain ⟨u, c₁, hname, h⟩ := exec_bind_eq_ok h
  obtain ⟨ht, rfl⟩ := Prod.mk.inj h
  obtain rfl : d.value u = t := Except.ok.inj ht
  -- What the visit calls an effect is what `name` gave.
  have heffect : (Visit.mk (.var pos x) c).effect? = if u.isEffect then some u else none := by
    have hvalue : (value (.var pos x)).exec c = (.ok u, c₁) := by
      rw [value, node, exec_bind, hname]
      rfl
    cases u <;> simp [Visit.effect?, hvalue, Term.isEffect]
  have hliteral : (Visit.mk (.var pos x) c).literal? =
      if u.isEffect then some (.atom x) else none := by
    have hmap : (Visit.mk (.var pos x) c).literal? =
        (Visit.mk (.var pos x) c).effect?.map fun _ => .atom x := rfl
    rw [hmap, heffect]
    split <;> rfl
  refine Follows.value ?_ d
  -- Of the three things that a name can mean, only an effect interns.
  rw [name, exec_get_bind] at hname
  cases hresolve : c.scope.resolve? x with
  | some i =>
    rw [hresolve] at hname
    cases hname
    -- a name in scope
    exact (follows_vars _ (by simp [Term.leaves])).visit hliteral heffect
  | none =>
    cases hbuiltin : Builtin.ofName? x with
    | some b =>
      rw [hresolve, hbuiltin] at hname
      cases hname
      -- a built-in name, whose term is an abstraction
      have hplain : b.term.isEffect = false := by cases b <;> rfl
      rw [hplain] at hliteral heffect
      exact (follows_vars _ b.leaves_term).visit hliteral heffect
    | none =>
      cases hsuffix : c.isEffect x with
      | true =>
        simp only [hresolve, hbuiltin, hsuffix, if_true] at hname
        cases hname
        refine ⟨?_, ?_⟩
        · rw [List.filterMap_cons_some hliteral]
          rfl
        · rw [List.filterMap_cons_some heffect]
          exact .refl _
      | false =>
        simp only [hresolve, hbuiltin, hsuffix, Bool.false_eq_true, if_false] at hname
        cases hname

/-! ## Calls and blocks -/

/-- A node that is lowered from a table with the reserved literals interns the literals of its visits. -/
abbrev NodeFollows (d : Delivery) (k : NameKind) (n : Node) : Prop :=
  ∀ ⦃c t c'⦄, (node d k n).exec c = (.ok t, c') → c.HasReserved →
    Follows c.literals c'.literals (visits d c n) t.leaves

/-- `arguments` intern the literals of their visits. -/
abbrev ArgumentsFollow (d : Delivery) (ns : List Node) : Prop :=
  ∀ ⦃c ts c'⦄, (arguments d ns).exec c = (.ok ts, c') → c.HasReserved →
    Follows c.literals c'.literals (argumentVisits d c ns) (ts.flatMap Term.leaves)

/-- `items` intern the literals of their visits. -/
abbrev ItemsFollow (ns : List Node) : Prop :=
  ∀ ⦃c r c'⦄, (items ns).exec c = (.ok r, c') → c.HasReserved →
    Follows c.literals c'.literals (itemVisits c ns) (r.1.flatMap (·.term.leaves))

/-- `node` of a call: the visits of the callee and then those of the arguments, in both ways of
    lowering it. -/
theorem call_follows (d : Delivery) (k : NameKind) (pos : Nat) (callee : Node) (args : List Node)
    (hcallee : ∀ d k, NodeFollows d k callee) (hargs : ∀ d, ArgumentsFollow d args) :
    NodeFollows d k (.call pos callee args) := by
  intro c t c' hrun hc
  rw [visits]
  refine Follows.visit ?_ rfl rfl
  rcases structure_or_ordinary d c.scope (.call pos callee args) with ⟨rfl, h⟩ | h
  · -- structure
    rw [exec_call_structure h] at hrun
    obtain ⟨head, c₁, hhead, hrun⟩ := exec_bind_eq_ok hrun
    obtain ⟨ts, c₂, hts, hrun⟩ := exec_bind_eq_ok hrun
    obtain ⟨ht, rfl⟩ := Prod.mk.inj hrun
    obtain rfl := Except.ok.inj ht
    have hc₁ := ((node_framed _ _ _ _).of_ok hhead).1.hasReserved hc
    have hall := (hcallee _ _ hhead hc).append (hargs _ hts hc₁)
    simp only [h, decide_true, Bool.and_self, if_true, hhead]
    -- The tag in front and the end of the list are literals, so no effect is added.
    refine hall.rearrange ?_
    simp [Term.leaves, Term.tagged, Term.leaves_list, Term.reserved, Term.isEffect]
  · -- ordinary
    rw [exec_call_ordinary h] at hrun
    obtain ⟨fn, c₁, hfn, hrun⟩ := exec_bind_eq_ok hrun
    rw [exec_noteIf_bind] at hrun
    obtain ⟨values, c₂, hvalues, hrun⟩ := exec_bind_eq_ok hrun
    rw [exec_modify_bind] at hrun
    obtain ⟨ht, rfl⟩ := Prod.mk.inj hrun
    obtain rfl := Except.ok.inj ht
    have hc₁ := ((node_framed _ _ _ _).of_ok hfn).1.hasReserved hc
    have hlength := (arguments_length _ _ _).of_ok hvalues
    -- The queue that is put aside and the event that is noted leave the table as it is.
    have hafter := hargs _ hvalues hc₁
    have hall := (hcallee _ _ hfn hc).append hafter
    simp only [structure_eq_false h, Bool.false_eq_true, if_false, hfn]
    refine (hall.rearrange ?_).value d
    rw [Term.leaves_appAll]
    cases args with
    | nil =>
      rw [List.length_eq_zero_iff.1 hlength]
      simp [Term.leaves, Term.reserved, Term.isEffect]
    | cons arg rest => exact .refl _

/-- `items` of one more item: `openScope` leaves the table as it is. -/
theorem items_cons_follow (n : Node) (rest : List Node) (hn : NodeFollows .plain .ordinary n)
    (hrest : ItemsFollow rest) : ItemsFollow (n :: rest) := by
  intro c r c' hrun hc
  rw [items, exec_modifyGet_bind] at hrun
  obtain ⟨t, c₁, ht, hrun⟩ := exec_bind_eq_ok hrun
  obtain ⟨later, c₂, hlater, hrun⟩ := exec_bind_eq_ok hrun
  obtain ⟨hr, rfl⟩ := Prod.mk.inj hrun
  obtain rfl := Except.ok.inj hr
  have hc₀ := c.grows_openScope.hasReserved hc
  have hc₁ := ((node_framed _ _ _ _).of_ok ht).1.hasReserved hc₀
  -- Opening the scope of the item interns nothing.
  have hfirst := hn ht hc₀
  rw [Context.literals_openScope] at hfirst
  rw [itemVisits, ht]
  exact hfirst.append (hrest hlater hc₁)

/-- `block` follows if its items do. A block without items interns a literal that the table has
    already. -/
theorem block_follows_of_items {ns : List Node} (h : ItemsFollow (itemsOrNil ns)) {c c' : Context}
    {t : Term} (hrun : (block ns).exec c = (.ok t, c')) (hc : c.HasReserved) :
    Follows c.literals c'.literals (itemVisits c ns) t.leaves := by
  rw [block_eq, exec_get_bind] at hrun
  obtain ⟨r, c₁, hitems, hrun⟩ := exec_bind_eq_ok hrun
  obtain ⟨ht, rfl⟩ := Prod.mk.inj hrun
  obtain rfl : BlockStep.chain r.1 = t := Except.ok.inj ht
  have hsteps := ne_nil_of_length_itemsOrNil ((items_length _ c).of_ok hitems)
  have hall := (h hitems hc).rearrange ((BlockStep.leaves_chain_perm hsteps).filter _)
  cases ns with
  | nil =>
    -- The atom that stands in for the items is no node of the source.
    have hnil : Reserved.nil.literal ∈ c.literals.toList := hc.subset (by decide)
    refine ⟨?_, hall.effects⟩
    rw [itemVisits]
    exact hall.literals.trans (LiteralTable.intern_of_mem hnil)
  | cons n rest => exact hall

/-- All of lowering follows its visits: `node`, `arguments` and `items`, by `Lower.induct`. -/
private theorem follows_all :
    (∀ d k n, NodeFollows d k n) ∧ (∀ d ns, ArgumentsFollow d ns) ∧ ∀ ns, ItemsFollow ns := by
  refine induct NodeFollows ArgumentsFollow ItemsFollow ?_ ?_ ?_ ?_ ?_ call_follows ?_ ?_ ?_
    items_cons_follow
  · -- var
    intro d k pos x c t c' hrun _
    rw [visits]
    · exact var_follows d k pos x hrun
    all_goals simp
  · -- atom
    intro d k pos x c t c' hrun _
    rw [node] at hrun
    obtain ⟨ht, rfl⟩ := Prod.mk.inj hrun
    obtain rfl := Except.ok.inj ht
    exact (follows_literal c rfl rfl).value d
  · -- text
    intro d k pos content c t c' hrun _
    rw [node] at hrun
    obtain ⟨ht, rfl⟩ := Prod.mk.inj hrun
    obtain rfl := Except.ok.inj ht
    exact (follows_literal c rfl rfl).value d
  · -- binding
    intro d k pos level consume x c t c' hrun _
    rw [node] at hrun
    obtain ⟨ht, rfl⟩ := Prod.mk.inj hrun
    obtain rfl := Except.ok.inj ht
    exact (follows_literal c rfl rfl).binding d
  · -- block
    intro d k pos ns ih c t c' hrun hc
    rw [node] at hrun
    rw [visits]
    exact (block_follows_of_items ih hrun hc).visit rfl rfl
  · -- no arguments
    intro d c ts c' hrun _
    rw [arguments] at hrun
    cases hrun
    exact follows_nil _
  · -- an argument and the rest
    intro d arg rest harg hrest c ts c' hrun hc
    rw [arguments] at hrun
    obtain ⟨t, c₁, ht, hrun⟩ := exec_bind_eq_ok hrun
    obtain ⟨later, c₂, hlater, hrun⟩ := exec_bind_eq_ok hrun
    cases hrun
    have hc₁ := ((node_framed _ _ _ _).of_ok ht).1.hasReserved hc
    rw [argumentVisits, ht]
    exact (harg ht hc).append (hrest hlater hc₁)
  · -- no items
    intro c r c' hrun _
    rw [items] at hrun
    cases hrun
    exact follows_nil _

/-- `block` interns the literals of its source in order. -/
theorem block_follows {ns : List Node} {c c' : Context} {t : Term}
    (hrun : (block ns).exec c = (.ok t, c')) (hc : c.HasReserved) :
    Follows c.literals c'.literals (itemVisits c ns) t.leaves :=
  block_follows_of_items (follows_all.2.2 _) hrun hc

end Lower

/-- The literals of `lowerAll` are listed in the order of the source. `itemVisits` meets the nodes of
    the source one after the other in that order (`preorderAll`), a callee before its arguments,
    arguments and items from left to right, and each of them in a context of its own. The literals of a
    program that is lowered are the first occurrences (`eraseDups`) in the sequence of the four
    reserved atoms and of the literals of the nodes: an atom, a text, the name of a binding as an atom,
    and the name of an effect as an atom. The effects that names are lowered to are those of the term,
    so a name counts as often as it is an effect there. -/
theorem lowerAll_literals_eq_eraseDups (settings : Settings) (file : Nat) (items : List Node) (p : Program)
    (h : (Node.lowerAll settings file items).1 = .ok p) :
    let visits := Lower.itemVisits (Node.start settings file items) items
    visits.map Visit.node = Node.preorderAll items ∧
      p.literals = ([Literal.atom "Nil", .atom "Value", .atom "Binding", .atom "Call"] ++
        visits.filterMap Visit.literal?).eraseDups ∧
      (p.term.leaves.filter Term.isEffect).Perm (visits.filterMap Visit.effect?) := by
  intro visits
  obtain ⟨c, hrun, hliterals⟩ := Node.lowerAll_eq_ok_iff.1 h
  have hfollows := Lower.block_follows hrun (List.prefix_refl _)
  have hreserved : LiteralTable.reserved.toList.Nodup := by decide
  refine ⟨Lower.map_node_itemVisits _ items, ?_, hfollows.effects⟩
  rw [hliterals, hfollows.literals]
  exact LiteralTable.toList_internAll hreserved _

/-- The name of an effect is bound, so it counts as a binding and in the next item not at all; another
    effect counts twice, once under a tag; and an empty block adds nothing. -/
theorem lowerAll_literals_eq_eraseDups_shadowed_effect :
    let settings : Settings := ⟨[(.macroName, "let"), (.ordinary, "f")], "!"⟩
    let items : List Node := [
      .callNamed 0 "let" [.bind 0 "print!", .callNamed 0 "f" [.var 0 "get!", .atom 0 "a", .text 0 "a"]],
      .callNamed 0 "print!" [.block 0 [], .atom 0 "a", .var 0 "get!", .var 0 "put!"]]
    let sequence : List Literal := [.atom "print!", .atom "get!", .atom "a", .text "a", .atom "a",
      .atom "get!", .atom "put!"]
    ∃ p, (Node.lowerAll settings 0 items).1 = .ok p ∧
      p.literals = ([Literal.atom "Nil", .atom "Value", .atom "Binding", .atom "Call"] ++
        sequence).eraseDups ∧
      (p.term.leaves.filter Term.isEffect).Perm [.effect 5, .effect 5, .effect 8] := by
  intro settings items sequence
  obtain ⟨p, hp⟩ : ∃ p, (Node.lowerAll settings 0 items).1 = .ok p := ⟨_, by cbv⟩
  have hsequence :
      (Lower.itemVisits (Node.start settings 0 items) items).filterMap Visit.literal? = sequence := by
    cbv
  have heffects : (Lower.itemVisits (Node.start settings 0 items) items).filterMap Visit.effect? =
      [.effect 5, .effect 5, .effect 8] := by
    cbv
  obtain ⟨-, hliterals, hperm⟩ := lowerAll_literals_eq_eraseDups settings 0 items p hp
  rw [hsequence] at hliterals
  rw [heffects] at hperm
  exact ⟨p, hp, hliterals, hperm⟩

end Unsugar
