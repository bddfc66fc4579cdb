import Mathlib
import Unsugar.Proofs.Literals
import Unsugar.Proofs.Scoping

/-!
# What a macro observes of its arguments

A macro is given its arguments under tags: a value, the name of a binding, or a call with its callee and
a list of its arguments, again under tags; a block is given as it is. Tags are literals and lists are
applications like any others, so this has to be read back. `Observer.see?` does, by the tags alone, for
whatever an observer makes of the parts.

What can be observed is the shape of the argument, and it is settled before anything is lowered: by the
tree and by the scope at the start. That the scope is examined again at every call below, after its
siblings were lowered, makes no difference.

## Key results

- `Observer.see?_call`, `Observer.seeAll?_list`: reading back calls and their lists of arguments
- `Lower.tagged_shown`: an argument shows the shape that its node has in the scope at the start
- `see?_wrapped`: the same of a request for an argument
-/

namespace Unsugar

/-- What an observer makes of an argument under its tag. It does not look into blocks and values. -/
structure Observer (α : Type) where
  block : Option α
  value : Term → α
  binding : (place : Nat) → Option α
  call : α → List α → α

namespace Observer

variable {α : Type}

mutual

/-- Reads an argument of a macro. An abstraction is a block, and the tags are the literals at places 1
    (a value), 2 (a binding) and 3 (a call). -/
def see? (o : Observer α) : Term → Option α
  | .abs _ => o.block
  | .app (.lit 1) t => some (o.value t)
  | .app (.lit 2) (.lit i) => o.binding i
  | .app (.app (.lit 3) head) args => do
    let head ← o.see? head
    return o.call head (← o.seeAll? args)
  | _ => none

/-- Reads a list of arguments, which the literal at place 0 ends. -/
def seeAll? (o : Observer α) : Term → Option (List α)
  | .lit 0 => some []
  | .app t rest => do
    let a ← o.see? t
    return a :: (← o.seeAll? rest)
  | _ => none

end

/-- `see?` of an abstraction: it is a block. -/
theorem see?_of_isAbs (o : Observer α) {t : Term} (h : t.isAbs) : o.see? t = o.block := by
  cases t with
  | abs b => rw [see?]
  | _ => cases h

/-- `see?` of a value under its tag. -/
@[simp] theorem see?_value (o : Observer α) (t : Term) :
    o.see? (t.tagged .value) = some (o.value t) := by
  simp [Term.tagged, Term.reserved, Reserved.index, see?]

/-- `see?` of the place of a name under the tag of bindings. -/
@[simp] theorem see?_binding (o : Observer α) (i : Nat) :
    o.see? ((Term.lit i).tagged .binding) = o.binding i := by
  simp [Term.tagged, Term.reserved, Reserved.index, see?]

/-- `seeAll?` of `list` reads the members one by one. By induction on the members. -/
theorem seeAll?_list (o : Observer α) (ts : List Term) :
    o.seeAll? (Term.list ts) = ts.mapM o.see? := by
  induction ts with
  | nil => simp [Term.list, Term.reserved, Reserved.index, seeAll?]
  | cons t rest ih =>
    have hstep : Term.list (t :: rest) = .app t (Term.list rest) := rfl
    rw [hstep, seeAll?, ih, List.mapM_cons]

/-- `see?` of a call under its tag, with the list of its arguments. -/
theorem see?_call (o : Observer α) {head : Term} {ts : List Term} {a : α} {as : List α}
    (hhead : o.see? head = some a) (hts : ts.mapM o.see? = some as) :
    o.see? (.app (head.tagged .call) (Term.list ts)) = some (o.call a as) := by
  have hlist : o.seeAll? (Term.list ts) = some as := by rw [seeAll?_list, hts]
  simp [Term.tagged, Term.reserved, Reserved.index, see?, hhead, hlist]

end Observer

/-! ## Shapes -/

/-- What a macro can tell of an argument. -/
inductive Shape where
  | block
  | value
  | binding (name : String)
  | call (head : Shape) (args : List Shape)
deriving Repr

/-- Sees the shape of an argument, with the names of bindings looked up in a table. -/
def Observer.shape (table : LiteralTable) : Observer Shape where
  block := some .block
  value := fun _ => .value
  binding := fun i => (table.get? i).map fun l => .binding l.content
  call := .call

namespace Scope

mutual

/-- The shape of a node in a scope. -/
def shape (s : Scope) : Node → Shape
  | .binding _ _ _ name => .binding name
  | .block .. => .block
  | .var .. | .atom .. | .text .. => .value
  | .call pos callee args =>
    if s.hasBindings (.call pos callee args) then .call (s.shape callee) (s.shapes args) else .value

/-- The shapes of several nodes in a scope. -/
def shapes (s : Scope) : List Node → List Shape
  | [] => []
  | n :: rest => s.shape n :: s.shapes rest

end

end Scope

/-! ## Arguments show their shapes -/

namespace Lower

/-- An argument of a macro, once it is lowered, shows the shape that its node has in the scope at the
    start. Names are looked up in any table that goes on from the one at the end. -/
abbrev NodeShown (k : NameKind) (n : Node) : Prop :=
  ∀ c : Context, Ends (fun t c' => ∀ table : LiteralTable, c'.literals.toList <+: table.toList →
      (Observer.shape table).see? t = some (c.scope.shape n)) (fun _ _ => True)
    ((node .tagged k n).exec c)

/-- `NodeShown` for several arguments. -/
abbrev ArgumentsShown (ns : List Node) : Prop :=
  ∀ c : Context, Ends (fun ts c' => ∀ table : LiteralTable, c'.literals.toList <+: table.toList →
      ts.mapM (Observer.shape table).see? = some (c.scope.shapes ns)) (fun _ _ => True)
    ((arguments .tagged ns).exec c)

/-- `queue` gives the place of the binding's name. -/
theorem queue_shown (b : Pending) (c : Context) :
    Ends (fun t c' => ∀ table : LiteralTable, c'.literals.toList <+: table.toList →
        (Observer.shape table).see? (t.tagged .binding) = some (.binding b.name)) (fun _ _ => True)
      ((queue b).exec c) := by
  intro table htable
  have hplace := LiteralTable.get?_of_prefix htable (c.literals.get?_intern (.atom b.name))
  rw [Observer.see?_binding]
  exact congrArg (Option.map _) hplace

/-- `node` of a call shows its parts if it has bindings, and is a value otherwise. -/
theorem call_shown (k : NameKind) (pos : Nat) (callee : Node) (args : List Node)
    (hcallee : ∀ k, NodeShown k callee) (hargs : ArgumentsShown args) :
    NodeShown k (.call pos callee args) := by
  intro c
  rw [Scope.shape]
  cases h : c.scope.hasBindings (.call pos callee args) with
  | true =>
    rw [exec_call_structure h, if_pos rfl]
    refine ((hcallee _ c).and (node_framed _ _ _ c)).bind ?_
    intro head c₁ hmid
    obtain ⟨hhead, -, hscope⟩ := hmid
    refine ((hargs c₁).and (arguments_framed _ _ c₁)).bind ?_
    intro ts c₂ hmid table htable
    obtain ⟨hts, hgrows, -⟩ := hmid
    -- The arguments are lowered, and examined, in the scope that the callee gave back.
    have hshapes := hts table htable
    rw [hscope] at hshapes
    exact Observer.see?_call _ (hhead table (hgrows.literals.trans htable)) hshapes
  | false =>
    rw [exec_call_ordinary fun _ => h, if_neg Bool.false_ne_true]
    refine (ends_true _).bind fun fn c₁ _ => ?_
    rw [exec_noteIf_bind]
    refine (ends_true _).bind fun values c₂ _ => ?_
    intro table _
    exact Observer.see?_value _ _

/-- `node` and `arguments` of what a macro is given show their shapes, by `Lower.induct_arguments`. -/
private theorem shown_all : (∀ k n, NodeShown k n) ∧ ∀ ns, ArgumentsShown ns := by
  refine induct_arguments NodeShown ArgumentsShown ?_ ?_ ?_ ?_ ?_ call_shown ?_ ?_
  · -- var
    intro k pos x c
    rw [node]
    exact (ends_true _).bind fun t c' _ table _ => Observer.see?_value _ t
  · -- atom
    intro k pos x c
    rw [node]
    exact (ends_true _).bind fun t c' _ table _ => Observer.see?_value _ t
  · -- text
    intro k pos content c
    rw [node]
    exact (ends_true _).bind fun t c' _ table _ => Observer.see?_value _ t
  · -- binding
    intro k pos level consume x c
    rw [node]
    exact (queue_shown ⟨level, consume, x, k⟩ c).bind fun t c' h => h
  · -- block
    intro k pos ns c
    rw [node]
    refine (block_isAbs ns c).imp ?_ fun _ _ h => h
    intro t c' habs table _
    rw [Observer.see?_of_isAbs _ habs]
    rfl
  · -- no arguments
    intro c
    rw [arguments]
    intro table _
    rfl
  · -- an argument and the rest
    intro arg rest harg hrest c
    rw [arguments]
    refine ((harg c).and (node_framed _ _ _ c)).bind ?_
    intro t c₁ hmid
    obtain ⟨ht, -, hscope⟩ := hmid
    refine ((hrest c₁).and (arguments_framed _ _ c₁)).bind ?_
    intro ts c₂ hmid table htable
    obtain ⟨hts, hgrows, -⟩ := hmid
    -- The table at the end goes on from the one after the first argument.
    have hshape := ht table (hgrows.literals.trans htable)
    have hshapes := hts table htable
    rw [hscope] at hshapes
    rw [List.mapM_cons, hshape, hshapes]
    rfl

/-- `node` of an argument of a macro shows the shape of the node. -/
theorem tagged_shown (k : NameKind) (n : Node) : NodeShown k n :=
  shown_all.1 k n

end Lower

/-- `see?` of `wrapped`: macro arguments are unambiguously observable. Whatever the context, if a node
    is lowered as an argument of a macro, its term can be read by its tags, and what is read is
    `Scope.shape` of the node in the scope at the start: the name of a binding, a block, a call with
    the shapes of its callee and its arguments in order if it has bindings, and a value otherwise. If
    the table started with the reserved atoms, it still does, so the tags are those atoms. -/
theorem see?_wrapped (c : Context) (n : Node) (t : Term) (c' : Context)
    (h : (Lower.wrapped n).exec c = (.ok t, c')) :
    (Observer.shape c'.literals).see? t = some (c.scope.shape n) ∧
      (c.HasReserved → ∀ r : Reserved, c'.literals.get? r.index = some r.literal) := by
  have hshown := (Lower.tagged_shown .ordinary n c).of_ok h
  have hgrows : c.Grows c' := ((Lower.node_framed .tagged .ordinary n c).of_ok h).1
  refine ⟨hshown c'.literals List.prefix_rfl, fun hc r => ?_⟩
  have hplace : LiteralTable.reserved.get? r.index = some r.literal := by
    cases r <;> rfl
  exact LiteralTable.get?_of_prefix (hgrows.hasReserved hc) hplace

/-- A call in which a binding and an atom have the names of tags. The name `Value` is at the place of the
    tag, but it is seen as a name where it stands. -/
theorem see?_wrapped_named_like_tags :
    let c := Context.initial ⟨[(.macroName, "m"), (.ordinary, "f")], "!"⟩
    let n := Node.callNamed 0 "f" [.bind 0 "Value", .callNamed 0 "m" [.bind 0 "x"],
      .call 0 (.callNamed 0 "f" [.bind 0 "y", .atom 0 "Call"]) [.block 0 [.var 0 "y"]]]
    let inner := Term.app (.app (.lit 3) (.app (.lit 1) (.var 0)))
      (.app (.app (.lit 2) (.lit 5)) (.app (.app (.lit 1) (.lit 3)) (.lit 0)))
    let t := Term.app (.app (.lit 3) (.app (.lit 1) (.var 0)))
      (.app (.app (.lit 2) (.lit 1))
        (.app (.app (.lit 1) (.app (.var 1) (.app (.lit 2) (.lit 4))))
          (.app (.app (.app (.lit 3) inner) (.app (.abs (.abs (.abs (.var 0)))) (.lit 0))) (.lit 0))))
    ((Lower.wrapped n).exec c).1 = .ok t ∧
      (Observer.shape ((Lower.wrapped n).exec c).2.literals).see? t =
        some (.call .value [.binding "Value", .value,
          .call (.call .value [.binding "y", .value]) [.block]]) := by
  intro c n inner t
  have hterm : ((Lower.wrapped n).exec c).1 = .ok t := by cbv
  have hrun : (Lower.wrapped n).exec c = (.ok t, ((Lower.wrapped n).exec c).2) := by
    rw [← hterm]
  have hshape : c.scope.shape n = .call .value [.binding "Value", .value,
      .call (.call .value [.binding "y", .value]) [.block]] := by cbv
  have hseen := (see?_wrapped c n t _ hrun).1
  rw [hshape] at hseen
  exact ⟨hterm, hseen⟩

end Unsugar
