import Mathlib
import Unsugar.Proofs.Occurrence

/-!
# The items of a block in its chain

A chain is folded from the right, and whether an item is applied to the rest of its block or is its
argument depends on how many names the next item opened. Given these counts a chain can be taken apart
again from the outside, and nothing is lost: `Term.readItems?` finds every item, once and in order.

The place of an item is described by the layers around it (`Layer`), from the outermost one in. They do
not depend on the item, and of them as many are abstractions as it and the items before it opened.

Items that open nothing are arguments of the rest. Under call by value they are evaluated one after the
other, each with the results of those before it (`CallByValue.eval_beside`).

## Key results

- `BlockStep.readItems?_chain`: the items of a chain can be read back
- `BlockStep.chain_append`: the place of the rest of a block
- `CallByValue.eval_beside`: items that open nothing are evaluated from left to right
-/

namespace Unsugar

/-! ## Places in terms -/

/-- A layer around a place in a term. -/
inductive Layer where
  /-- The place is the body of an abstraction. -/
  | abs
  /-- The place is the function of an application. -/
  | fn (arg : Term)
  /-- The place is the argument of an application. -/
  | arg (fn : Term)
deriving DecidableEq

/-- Puts one layer around a term. -/
def Layer.wrap : Layer → Term → Term
  | .abs, t => .abs t
  | .fn x, t => .app t x
  | .arg f, t => .app f t

namespace Term

/-- A term with layers around it, the outermost first. -/
def within (t : Term) (around : List Layer) : Term :=
  around.foldr Layer.wrap t

theorem within_append (t : Term) (outer inner : List Layer) :
    t.within (outer ++ inner) = (t.within inner).within outer :=
  List.foldr_append

/-- `within` of `n` abstractions is `abstracted n`. -/
theorem within_replicate_abs (n : Nat) (t : Term) :
    t.within (List.replicate n .abs) = t.abstracted n := by
  induction n with
  | zero => rfl
  | succ n ih => exact congrArg Term.abs ih

/-! ## Reading a chain -/

/-- The term under `n` abstractions. -/
def underAbs? : Nat → Term → Option Term
  | 0, t => some t
  | n + 1, .abs b => b.underAbs? n
  | _ + 1, _ => none

/-- `underAbs?` undoes `abstracted`. -/
@[simp] theorem underAbs?_abstracted (n : Nat) (t : Term) :
    (t.abstracted n).underAbs? n = some t := by
  induction n with
  | zero => rfl
  | succ n ih => exact ih

/-- The items of a block, read from its chain and from how many names each of them opened. Under the
    abstractions of an item stand the item and the rest of the block, which is the function if its
    first item opened nothing. -/
def readItems? : List Nat → Term → Option (List Term)
  | [], _ => none
  | [opened], t => (t.underAbs? (max 1 opened)).map fun item => [item]
  | opened :: next :: rest, t =>
    match t.underAbs? (max 1 opened) with
    | some (.app f x) =>
      if next = 0 then
        (f.readItems? (next :: rest)).map (x :: ·)
      else
        (x.readItems? (next :: rest)).map (f :: ·)
    | _ => none

end Term

namespace BlockStep

/-- How many abstractions items stand under, one for each name or for an ignored argument. -/
def abstractions (steps : List BlockStep) : Nat :=
  (steps.map fun s => max 1 s.opened).sum

/-- What stands beside an item under its abstractions: the rest of the block, if there is any. -/
def beside : List BlockStep → List Layer
  | [] => []
  | next :: rest =>
    [if next.opened = 0 then .arg (chain (next :: rest)) else .fn (chain (next :: rest))]

/-- `chain` of an item and the rest: the item with what stands `beside` it, under its abstractions. -/
theorem chain_cons (step : BlockStep) (rest : List BlockStep) :
    chain (step :: rest) = (step.term.within (beside rest)).abstracted (max 1 step.opened) := by
  cases rest with
  | nil => rfl
  | cons next rest =>
    rw [chain_cons_cons, beside]
    split <;> rfl

/-- `readItems?` of `chain` gives every item, once and in order. By induction on the items. -/
theorem readItems?_chain {steps : List BlockStep} (h : steps ≠ []) :
    (chain steps).readItems? (steps.map opened) = some (steps.map term) := by
  induction steps with
  | nil => exact absurd rfl h
  | cons step rest ih =>
    cases rest with
    | nil => simp [chain, Term.readItems?]
    | cons next rest =>
      have hlater := ih (List.cons_ne_nil _ _)
      rw [List.map_cons] at hlater
      rw [chain_cons_cons, List.map_cons, List.map_cons, Term.readItems?, Term.underAbs?_abstracted]
      -- The fold and the reader decide by the same count, that of the next item.
      by_cases hnext : next.opened = 0
      · simp only [hnext, if_true] at hlater ⊢
        rw [hlater]
        rfl
      · simp only [hnext, if_false]
        rw [hlater]
        rfl

/-! ## The place of an item -/

/-- The layers that an item puts around the rest of its block, whose first item opens `next` names. -/
def layers (step : BlockStep) (next : Nat) : List Layer :=
  List.replicate (max 1 step.opened) .abs ++ [if next = 0 then .fn step.term else .arg step.term]

/-- The layers that items put around the rest of their block, whose first item opens `next` names. -/
def around : List BlockStep → Nat → List Layer
  | [], _ => []
  | [step], next => step.layers next
  | step :: following :: rest, next => step.layers following.opened ++ around (following :: rest) next

/-- `chain` of an item and the rest, seen from the rest: it stands in the `layers` of the item. -/
theorem chain_cons_eq_within (step next : BlockStep) (rest : List BlockStep) :
    chain (step :: next :: rest) = (chain (next :: rest)).within (step.layers next.opened) := by
  rw [chain_cons_cons, layers, Term.within_append, Term.within_replicate_abs]
  split <;> rfl

/-- `chain` of appended items: the rest is a chain of its own, in the layers `around` it. -/
theorem chain_append (before : List BlockStep) (step : BlockStep) (after : List BlockStep) :
    chain (before ++ step :: after) = (chain (step :: after)).within (around before step.opened) := by
  induction before with
  | nil => rfl
  | cons first rest ih =>
    -- Of what follows the given items, only the count of its first item is seen, and only by the
    -- last of them.
    cases rest with
    | nil => exact chain_cons_eq_within first step after
    | cons following rest =>
      rw [List.cons_append, List.cons_append, chain_cons_eq_within, ← List.cons_append, ih, around,
        Term.within_append]

/-- The abstractions among the `layers` of an item are its own. -/
theorem count_layers (step : BlockStep) (next : Nat) :
    (step.layers next).count .abs = max 1 step.opened := by
  rw [layers, List.count_append, List.count_replicate_self]
  split <;> rfl

/-- The abstractions `around` the rest of a block are those of the items before it. -/
theorem count_around (before : List BlockStep) (next : Nat) :
    (around before next).count .abs = abstractions before := by
  induction before with
  | nil => rfl
  | cons first rest ih =>
    cases rest with
    | nil => rw [around, count_layers]; rfl
    | cons following rest => rw [around, List.count_append, count_layers, ih]; rfl

/-- The layers around an item and the rest of its block: those of the items before it, and its own
    abstractions. -/
def surroundings (before : List BlockStep) (opened : Nat) : List Layer :=
  around before opened ++ List.replicate (max 1 opened) .abs

/-- `chain` seen from one of its items: the item with what stands `beside` it, in its `surroundings`.
    -/
theorem chain_append_eq_within (before : List BlockStep) (step : BlockStep)
    (after : List BlockStep) :
    chain (before ++ step :: after) =
      (step.term.within (beside after)).within (surroundings before step.opened) := by
  rw [chain_append, chain_cons, surroundings, Term.within_append, Term.within_replicate_abs]

/-- The abstractions in the `surroundings` of an item are those of it and of the items before it. -/
theorem count_surroundings (before : List BlockStep) (step : BlockStep) :
    (surroundings before step.opened).count .abs = abstractions (before ++ [step]) := by
  rw [surroundings, List.count_append, count_around, List.count_replicate_self]
  simp [abstractions]

/-- What stands `beside` an item puts no abstraction around it. -/
theorem count_beside (after : List BlockStep) : (beside after).count .abs = 0 := by
  cases after with
  | nil => rfl
  | cons next rest =>
    rw [beside]
    split <;> rfl

/-- `chain` whose first item opens nothing is a single abstraction. -/
theorem chain_cons_of_not_opened {step : BlockStep} (h : step.opened = 0) (rest : List BlockStep) :
    chain (step :: rest) = .abs (step.term.within (beside rest)) := by
  rw [chain_cons, h]
  rfl

/-- `beside` before an item that opens nothing: the item in front is the argument of the rest of the
    block. -/
theorem beside_of_not_opened {next : BlockStep} (h : next.opened = 0) (rest : List BlockStep) :
    beside (next :: rest) = [.arg (.abs (next.term.within (beside rest)))] := by
  rw [beside, if_pos h, chain_cons_of_not_opened h]

end BlockStep

/-! ## Evaluation -/

/-- A way to evaluate terms, given the values of their free variables from the innermost on. It is call
    by value: the argument of an abstraction is evaluated before its body, which gets its value. -/
structure CallByValue (m : Type → Type) [Monad m] (V : Type) where
  eval : List V → Term → m V
  eval_app_abs (env : List V) (body arg : Term) :
    eval env (.app (.abs body) arg) = eval env arg >>= fun v => eval (v :: env) body

namespace CallByValue

variable {m : Type → Type} [Monad m] {V : Type} (e : CallByValue m V)

/-- Evaluates terms one after the other, each with the values of those before it. -/
def inOrder (env : List V) (first : Term) : List Term → m V
  | [] => e.eval env first
  | next :: rest => e.eval env first >>= fun v => inOrder (v :: env) next rest

/-- `eval` of an item with later items that open nothing `beside` it goes from left to right
    (`inOrder`). By induction on the later items. -/
theorem eval_beside (env : List V) (item : Term) (after : List BlockStep)
    (h : ∀ s ∈ after, s.opened = 0) :
    e.eval env (item.within (BlockStep.beside after)) =
      e.inOrder env item (after.map BlockStep.term) := by
  induction after generalizing env item with
  | nil => rfl
  | cons next rest ih =>
    obtain ⟨hnext, hrest⟩ := List.forall_mem_cons.1 h
    -- The rest is a single abstraction: the item's value becomes its innermost variable.
    rw [BlockStep.beside_of_not_opened hnext]
    show e.eval env (.app (.abs (next.term.within (BlockStep.beside rest))) item) = _
    rw [e.eval_app_abs, List.map_cons, inOrder]
    exact bind_congr fun v => ih (v :: env) next.term hrest

end CallByValue

/-- `chain` keeps every item, once and in order. Whatever number of names each item opened,
    `readItems?` reads the items back from the chain by these numbers alone. The place of an item is
    the same whichever term stands there (`within`), and of the layers around it as many are
    abstractions as it and the items before it opened. If no item after it opens a name, its innermost
    layer makes it the argument of an abstraction with all later items in it, so that call by value
    evaluates it and then the later items from left to right (`inOrder`). -/
theorem chain_spec (steps : List BlockStep) (h : steps ≠ []) :
    (BlockStep.chain steps).readItems? (steps.map BlockStep.opened) =
      some (steps.map BlockStep.term) ∧
    ∀ before step after, steps = before ++ step :: after →
      ∃ outer inner : List Layer,
        (∀ t : Term, BlockStep.chain (before ++ ⟨step.opened, t⟩ :: after) =
          t.within (outer ++ inner)) ∧
        (outer ++ inner).count .abs = ((before ++ [step]).map fun s => max 1 s.opened).sum ∧
        ((∀ s ∈ after, s.opened = 0) →
          (after ≠ [] → ∃ later, inner = [.arg (.abs later)] ∧
            (Term.abs later).readItems? (after.map BlockStep.opened) =
              some (after.map BlockStep.term)) ∧
          ∀ (m : Type → Type) [Monad m] (V : Type) (e : CallByValue m V) (env : List V),
            e.eval env (step.term.within inner) =
              e.inOrder env step.term (after.map BlockStep.term)) := by
  refine ⟨BlockStep.readItems?_chain h, ?_⟩
  intro before step after _
  refine ⟨BlockStep.surroundings before step.opened, BlockStep.beside after, ?_, ?_, ?_⟩
  · -- the place does not depend on the item
    intro t
    rw [BlockStep.chain_append_eq_within, Term.within_append]
  · -- abstractions around it
    rw [List.count_append, BlockStep.count_surroundings, BlockStep.count_beside]
    rfl
  · -- nothing is opened after it
    intro hafter
    refine ⟨?_, fun m _ V e env => e.eval_beside env step.term after hafter⟩
    intro hne
    obtain ⟨next, rest, rfl⟩ := List.exists_cons_of_ne_nil hne
    have hnext := hafter next List.mem_cons_self
    refine ⟨_, BlockStep.beside_of_not_opened hnext rest, ?_⟩
    rw [← BlockStep.chain_cons_of_not_opened hnext]
    exact BlockStep.readItems?_chain hne

/-- Records the terms that are evaluated, in order. -/
def Term.record : Term → StateM (List Term) Unit
  | .app (.abs body) arg => do
    arg.record
    body.record
  | t => modify (· ++ [t])

/-- Evaluation that gives no values and records what it evaluates. -/
def CallByValue.recording : CallByValue (StateM (List Term)) Unit where
  eval _ := Term.record
  eval_app_abs _ _ _ := rfl

/-- The second item opens two names, and those after it none: it is evaluated before them, in order. -/
theorem chain_spec_mixed :
    let item : Term := .app (.var 1) (.var 0)
    let steps : List BlockStep := [⟨0, .lit 4⟩, ⟨2, item⟩, ⟨0, .lit 5⟩, ⟨0, .var 3⟩]
    let rest : Term := .abs (.app (.abs (.var 3)) (.lit 5))
    steps ≠ [] ∧
    BlockStep.chain steps = .abs (.app (.lit 4) (.abs (.abs (.app rest item)))) ∧
    (BlockStep.chain steps).readItems? [0, 2, 0, 0] = some [.lit 4, item, .lit 5, .var 3] ∧
    ∃ outer inner : List Layer,
      BlockStep.chain steps = item.within (outer ++ inner) ∧
      (outer ++ inner).count .abs = 3 ∧
      (∃ later, inner = [.arg (.abs later)] ∧
        (Term.abs later).readItems? [0, 0] = some [.lit 5, .var 3]) ∧
      (CallByValue.recording.eval [] (item.within inner)).run [] =
        ((), [item, .lit 5, .var 3]) := by
  intro item steps rest
  have hne : steps ≠ [] := List.cons_ne_nil _ _
  obtain ⟨hread, hplace⟩ := chain_spec steps hne
  obtain ⟨outer, inner, hchain, hcount, hlater⟩ :=
    hplace [⟨0, .lit 4⟩] ⟨2, item⟩ [⟨0, .lit 5⟩, ⟨0, .var 3⟩] rfl
  obtain ⟨hinner, heval⟩ := hlater (by simp)
  refine ⟨hne, rfl, hread, outer, inner, hchain item, hcount, hinner (List.cons_ne_nil _ _), ?_⟩
  rw [heval]
  rfl

end Unsugar
