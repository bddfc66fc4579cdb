import Mathlib
import Unsugar.Proofs.Events
import Unsugar.Proofs.Preservation

/-!
# Items of a block and blocks as arguments

A call that binds names takes the rest of its block as its continuation. Writing the rest as a block
argument of the call comes to the same: `{ let(:a, x), f(a) }` and `{ let(:a, x, { f(a) }) }` are
lowered to the same term, although the first goes through the boundary between two items and the
second through the arguments of a call. Only what is deferred to the scopes outside differs.

## Key results

- `Lower.call_concat_block`: a block as the last argument is lowered right after the call without it
- `Lower.block_call_agree`: a binding item followed by others, and the same as one call
- `block_call_append_block`: for single calls, for programs, and for whole sequences of calls
-/

namespace Unsugar

namespace Lower

/-! ## A block as the last argument -/

/-- `arguments` of appended nodes: the last one is lowered after the others. -/
theorem arguments_concat (d : Delivery) (ns : List Node) (n : Node) :
    arguments d (ns ++ [n]) = (do
      let ts ← arguments d ns
      let t ← node d .ordinary n
      return ts ++ [t]) := by
  induction ns with
  | nil => simp [arguments]
  | cons m rest ih => simp [arguments, ih]

/-- `definitionKind` does not see a block as the last argument: a block is no parameter. -/
theorem definitionKind_concat_block (args : List Node) (pos : Nat) (ns : List Node) :
    Node.definitionKind (args ++ [.block pos ns]) = Node.definitionKind args := by
  simp [Node.definitionKind, Node.isBlockBinding, List.any_append]

/-- `appAll` of appended terms: the last one is the argument of the outermost application. -/
theorem appAll_concat (fn : Term) (ts : List Term) (t : Term) :
    fn.appAll (ts ++ [t]) = .app (fn.appAll ts) t := by
  simp [Term.appAll]

/-- `exec` of `>>=` depends on the first part only through its run. -/
theorem exec_bind_congr {α β : Type} {x y : Lower α} {c d : Context} (h : x.exec c = y.exec d)
    (f : α → Lower β) : (x >>= f).exec c = (y >>= f).exec d := by
  rw [exec_bind, exec_bind, h]

/-- `node` of a call whose last argument is a block, started with an empty queue: the call without the
    block, followed by the block and an application. Only the reported number of arguments differs. -/
theorem call_concat_block {pos pos' q : Nat} {callee : Node} {args rest : List Node} {c : Context}
    (hargs : args ≠ []) (hc : c.pending = []) (k k' : NameKind) :
    EndAlike (fun t u c₁ c₂ => t = u ∧ c₁.SameButEvents c₂) Eq
      ((do
        let t ← node .plain k (.call pos callee args)
        let b ← block rest
        return Term.app t b : Lower Term).exec c)
      ((node .plain k' (.call pos' callee (args ++ [.block q rest]))).exec c) := by
  have hempty : args.isEmpty = false := by rwa [List.isEmpty_eq_false_iff]
  have hempty' : (args ++ [Node.block q rest]).isEmpty = false := by simp
  have hplain (n : Node) : Delivery.plain = .tagged → c.scope.hasBindings n = false := nofun
  -- Both calls are ordinary, and neither has anything to put aside.
  rw [exec_bind_congr (exec_call_ordinary (hplain _) k), exec_call_ordinary (hplain _) k',
    definitionKind_concat_block, arguments_concat, hempty, hempty', hc]
  simp only [bind_assoc, pure_bind]
  refine (endAlike_self _ _).bind ?_
  intro fn fn' c₁ c₂ hmid
  obtain ⟨rfl, rfl, -⟩ := hmid
  rw [exec_noteIf_bind, exec_noteIf_bind]
  -- The two calls report different numbers of arguments, so from here on the events differ.
  refine (arguments_blind _ args _ _ ⟨_, rfl⟩).bind ?_
  intro values values' c₃ c₄ hmid
  obtain ⟨rfl, hevents⟩ := hmid
  -- Without the block the queue is restored before it, with the block after it; it is empty in both.
  rw [exec_modify_bind, node]
  refine (block_blind rest c₃ c₄ hevents).bind ?_
  intro b b' c₅ c₆ hmid
  obtain ⟨rfl, hevents'⟩ := hmid
  rw [exec_modify_bind]
  refine ⟨?_, hevents'⟩
  simp only [Delivery.value, Bool.false_eq_true, if_false]
  rw [appAll_concat]

/-! ## A binding item and the rest of its block -/

/-- Two runs with the same result and, if they succeed, the same literals. -/
abbrev Agree (r s : Except Unresolved Term × Context) : Prop :=
  EndAlike (fun t u c d => t = u ∧ c.literals = d.literals) Eq r s

theorem Agree.trans {r s u : Except Unresolved Term × Context} (h₁ : Agree r s) (h₂ : Agree s u) :
    Agree r u :=
  EndAlike.trans h₁ h₂ fun _ _ _ _ _ _ h₁ h₂ => ⟨h₁.1.trans h₂.1, h₁.2.trans h₂.2⟩

/-- `block` of several items lowers the first, then the others, and closes. -/
theorem exec_block_cons (n : Node) (rest : List Node) (c : Context) :
    (block (n :: rest)).exec c =
      (do
        let t ← node .plain .ordinary n
        let (steps, deferred) ← items rest
        closeBlock c.scope.depth (⟨c.pending.length, t⟩ :: steps)
          (c.pending.filterMap Pending.shadow? ++ deferred) : Lower Term).exec c.openScope.2 := by
  rw [block, exec_get_bind, exec_modifyGet_bind, Context.openScope_fst]

/-- `chain` where the next item opens names: the item is applied to the chain of the rest. -/
theorem chain_cons_of_opened (opened : Nat) (t u : Term) (next : Nat) (steps : List BlockStep)
    (h : next ≠ 0) :
    BlockStep.chain (⟨opened, t⟩ :: ⟨next, u⟩ :: steps) =
      BlockStep.chain [⟨opened, .app t (BlockStep.chain (⟨next, u⟩ :: steps))⟩] := by
  simp only [BlockStep.chain, if_neg h]

/-- `items` after a call that left names agree with the call applied to a block that agrees with the
    items. -/
theorem items_agree_block {c : Context} {t : Term} {opened depth : Nat} {rest rest' : List Node}
    {shadows : List Pending} (hrest : rest ≠ []) (hpending : c.pending ≠ [])
    (h : Agree ((block rest).exec c) ((block rest').exec c)) :
    Agree
      ((do
        let (steps, deferred) ← items rest
        closeBlock depth (⟨opened, t⟩ :: steps) (shadows ++ deferred) : Lower Term).exec c)
      ((do
        let b ← block rest'
        closeBlock depth [⟨opened, .app t b⟩] shadows : Lower Term).exec c) := by
  obtain ⟨n, more, rfl⟩ := List.exists_cons_of_ne_nil hrest
  have hhead := items_cons_head n more c
  rw [block_eq, exec_get_bind, itemsOrNil, exec_bind] at h
  rw [exec_bind, exec_bind]
  rcases hi : (items (n :: more)).exec c with ⟨e | r, c₁⟩ <;>
    rcases hb : (block rest').exec c with ⟨e' | b, d₁⟩ <;> rw [hi, hb] at h
  · -- both fail
    exact h
  · -- only one of them fails, against `h`
    exact h.elim
  · exact h.elim
  · -- both succeed
    rw [hi] at hhead
    obtain ⟨steps, deferred⟩ := r
    obtain ⟨u, later, hsteps⟩ := hhead
    obtain ⟨hchain, hliterals⟩ := h
    refine ⟨?_, hliterals⟩
    -- The rest opens what the call left, so in the fold the call is applied to the rest.
    have hnext : c.pending.length ≠ 0 := mt List.length_eq_zero_iff.1 hpending
    rw [← hchain, show steps = ⟨c.pending.length, u⟩ :: later from hsteps]
    exact chain_cons_of_opened opened t u _ later hnext

/-- `block` of a call that binds, followed by other items, agrees with the block of the call that takes
    the other items as a block, or any block that agrees with them where they stand. -/
theorem block_call_agree {c : Context} {pos pos' q : Nat} {callee : Node}
    {args rest rest' : List Node} (hargs : args ≠ []) (hrest : rest ≠ [])
    (hbinds : ∀ t c₁,
      (node .plain .ordinary (.call pos callee args)).exec c.openScope.2 = (.ok t, c₁) →
        c₁.pending ≠ [] ∧ Agree ((block rest).exec c₁) ((block rest').exec c₁)) :
    Agree ((block (.call pos callee args :: rest)).exec c)
      ((block [.call pos' callee (args ++ [.block q rest'])]).exec c) := by
  let shadows := c.pending.filterMap Pending.shadow?
  -- Both are compared with the call without the block, followed by the block.
  let between : Lower Term := do
    let t ← node .plain .ordinary (.call pos callee args)
    let b ← block rest'
    closeBlock c.scope.depth [⟨c.pending.length, .app t b⟩] shadows
  have hflat : Agree ((block (.call pos callee args :: rest)).exec c)
      (between.exec c.openScope.2) := by
    rw [exec_block_cons]
    refine (endAlike_self _ _).bind ?_
    intro t t' c₁ c₂ hmid
    obtain ⟨rfl, rfl, hrun⟩ := hmid
    obtain ⟨hpending, hagree⟩ := hbinds t c₁ hrun
    exact items_agree_block hrest hpending hagree
  have hnested : Agree (between.exec c.openScope.2)
      ((block [.call pos' callee (args ++ [.block q rest'])]).exec c) := by
    have hbetween : between = (do
        let t ← (do
          let t ← node .plain .ordinary (.call pos callee args)
          let b ← block rest'
          return Term.app t b)
        closeBlock c.scope.depth [⟨c.pending.length, t⟩] shadows) := by
      simp [between]
    rw [exec_block_cons, hbetween]
    refine (call_concat_block hargs c.pending_openScope .ordinary .ordinary).bind ?_
    intro t t' c₁ c₂ hmid
    obtain ⟨rfl, events, rfl⟩ := hmid
    rw [items, pure_bind]
    exact ⟨rfl, rfl⟩
  exact hflat.trans hnested

/-! ## Sequences of binding calls -/

/-- Whether an item, lowered as the next one of a block, fails or leaves a name to those after it. -/
def bindsOrFails (c : Context) (n : Node) : Bool :=
  match (value n).exec c.openScope.2 with
  | (.ok _, c') => !c'.pending.isEmpty
  | (.error _, _) => true

/-- Whether this holds of every item of a block but the last, as far as they are lowered. -/
def bindThroughout : Context → List Node → Bool
  | c, n :: next :: rest =>
    match (value n).exec c.openScope.2 with
    | (.ok _, c') => !c'.pending.isEmpty && bindThroughout c' (next :: rest)
    | (.error _, _) => true
  | _, _ => true

end Lower

/-- Items in which some calls are given the items after them as a block, their last argument. -/
inductive Node.Nests : List Node → List Node → Prop where
  | same (items : List Node) : Nests items items
  | call {pos pos' q : Nat} {callee : Node} {args rest rest' : List Node} (hargs : args ≠ [])
      (hrest : rest ≠ []) (h : Nests rest rest') :
      Nests (.call pos callee args :: rest) [.call pos' callee (args ++ [.block q rest'])]

namespace Lower

/-- A blind computation agrees with itself from contexts that differ in their events only. -/
theorem Blind.agree {x : Lower Term} (hx : Blind x) {c d : Context} (h : c.SameButEvents d) :
    Agree (x.exec c) (x.exec d) := by
  refine (hx c d h).imp ?_
  intro t u c' d' hpost
  obtain ⟨ht, events, rfl⟩ := hpost
  exact ⟨ht, rfl⟩

theorem agree_self (x : Lower Term) (c : Context) : Agree (x.exec c) (x.exec c) := by
  match x.exec c with
  | (.ok _, _) => exact ⟨rfl, rfl⟩
  | (.error _, _) => exact rfl

/-- `bindsOrFails` as a statement about runs: each one that succeeds leaves something queued. -/
theorem bindsOrFails_iff {c : Context} {n : Node} :
    bindsOrFails c n ↔
      ∀ t c₁, (node .plain .ordinary n).exec c.openScope.2 = (.ok t, c₁) → c₁.pending ≠ [] := by
  show (match (node .plain .ordinary n).exec c.openScope.2 with
    | (.ok _, c') => !c'.pending.isEmpty
    | (.error _, _) => true) = true ↔ _
  match (node .plain .ordinary n).exec c.openScope.2 with
  | (.ok _, _) => simp
  | (.error _, _) => simp

/-- `bindThroughout` of an item and the rest: after the item something is queued, and the rest goes on
    from there. -/
theorem bindThroughout_cons {c : Context} {n : Node} {rest : List Node} (hrest : rest ≠ [])
    (h : bindThroughout c (n :: rest)) {t : Term} {c₁ : Context}
    (hrun : (node .plain .ordinary n).exec c.openScope.2 = (.ok t, c₁)) :
    c₁.pending ≠ [] ∧ bindThroughout c₁ rest := by
  obtain ⟨next, more, rfl⟩ := List.exists_cons_of_ne_nil hrest
  have hrun' : (value n).exec c.openScope.2 = (.ok t, c₁) := hrun
  rw [bindThroughout, hrun'] at h
  simpa using h

/-- `block` of `Nests` items: nesting calls that bind changes neither the result nor the literals. By
    induction on the nesting. -/
theorem nests_agree {items items' : List Node} (h : Node.Nests items items') (c : Context)
    (hbinds : bindThroughout c items) : Agree ((block items).exec c) ((block items').exec c) := by
  induction h generalizing c with
  | same items => exact agree_self _ c
  | call hargs hrest h ih =>
    refine block_call_agree hargs hrest ?_
    intro t c₁ hrun
    obtain ⟨hpending, hrest'⟩ := bindThroughout_cons hrest hbinds hrun
    exact ⟨hpending, ih c₁ hrest'⟩

theorem Agree.result_eq {r s : Except Unresolved Term × Context} (h : Agree r s) : r.1 = s.1 := by
  match r, s, h with
  | (.ok _, _), (.ok _, _), h => exact congrArg Except.ok h.1
  | (.error _, _), (.error _, _), h => exact congrArg Except.error h

/-- `Agree` gives the same literals to runs that succeed. -/
theorem Agree.literals_eq {r s : Except Unresolved Term × Context} (h : Agree r s) {t : Term}
    (ht : r.1 = .ok t) : r.2.literals = s.2.literals := by
  match r, s, h, ht with
  | (.ok _, _), (.ok _, _), h, _ => exact h.2

/-- A `Framed` run that succeeds ends in the scope it was started in. -/
theorem Framed.scope_eq {c : Context} {r : Except Unresolved Term × Context} (h : Framed c r)
    {t : Term} (ht : r.1 = .ok t) : r.2.scope = c.scope :=
  (h.of_fst_eq_ok ht).2

end Lower

/-- `lowerAll` is the same for blocks that agree where programs start, since a program starts there but
    for the event that reports it. -/
theorem Node.lowerAll_eq_of_agree {settings : Settings} {items items' : List Node}
    (h : Lower.Agree ((Lower.block items).exec (Context.initial settings))
      ((Lower.block items').exec (Context.initial settings))) (file : Nat) :
    (lowerAll settings file items).1 = (lowerAll settings file items').1 := by
  have hbefore : (start settings file items).SameButEvents (Context.initial settings) := ⟨[], rfl⟩
  have hafter : (Context.initial settings).SameButEvents (start settings file items') := ⟨_, rfl⟩
  have hagree := (((Lower.block_blind items).agree hbefore).trans h).trans
    ((Lower.block_blind items').agree hafter)
  rw [lowerAll_fst, lowerAll_fst]
  -- Agreeing runs both succeed or both fail.
  match hr : (Lower.block items).exec (start settings file items),
    hs : (Lower.block items').exec (start settings file items') with
  | (.ok t, c), (.ok u, d) =>
    rw [hr, hs] at hagree
    obtain ⟨rfl, hliterals⟩ := hagree
    simp only [Except.map, hliterals]
  | (.error e, c), (.error e', d) =>
    rw [hr, hs] at hagree
    exact congrArg Except.error hagree
  | (.ok t, c), (.error e', d) => rw [hr, hs] at hagree; exact hagree.elim
  | (.error e, c), (.ok u, d) => rw [hr, hs] at hagree; exact hagree.elim

/-- `block` of a call and of items after it is `block` of the call with these items as a block, its
    last argument, if the call fails as the next item or leaves names to the items after it. The two
    have the same result and leave the same scope and literals. So `lowerAll` gives the same programs,
    also for a sequence of such calls and its nested form (`Nests`). -/
theorem block_call_append_block :
    (∀ (c : Context) (pos pos' q : Nat) (callee : Node) (args rest : List Node),
      args ≠ [] → rest ≠ [] → Lower.bindsOrFails c (.call pos callee args) →
        let flat := (Lower.block (.call pos callee args :: rest)).exec c
        let nested := (Lower.block [.call pos' callee (args ++ [.block q rest])]).exec c
        flat.1 = nested.1 ∧ ∀ t, flat.1 = .ok t →
          flat.2.scope = nested.2.scope ∧ flat.2.literals = nested.2.literals) ∧
    (∀ (settings : Settings) (file pos pos' q : Nat) (callee : Node) (args rest : List Node),
      args ≠ [] → rest ≠ [] →
      Lower.bindsOrFails (Context.initial settings) (.call pos callee args) →
        (Node.lowerAll settings file (.call pos callee args :: rest)).1 =
          (Node.lowerAll settings file [.call pos' callee (args ++ [.block q rest])]).1) ∧
    ∀ (settings : Settings) (file : Nat) (items items' : List Node),
      Node.Nests items items' → Lower.bindThroughout (Context.initial settings) items →
        (Node.lowerAll settings file items).1 = (Node.lowerAll settings file items').1 := by
  -- A single call, in any context.
  have hsingle (c : Context) (pos pos' q : Nat) (callee : Node) (args rest : List Node)
      (hargs : args ≠ []) (hrest : rest ≠ [])
      (hbinds : Lower.bindsOrFails c (.call pos callee args)) :
      Lower.Agree ((Lower.block (.call pos callee args :: rest)).exec c)
        ((Lower.block [.call pos' callee (args ++ [.block q rest])]).exec c) :=
    Lower.block_call_agree hargs hrest fun t c₁ hrun =>
      ⟨Lower.bindsOrFails_iff.1 hbinds t c₁ hrun, Lower.agree_self _ c₁⟩
  refine ⟨?_, ?_, ?_⟩
  · -- blocks
    intro c pos pos' q callee args rest hargs hrest hbinds flat nested
    have hagree : Lower.Agree flat nested :=
      hsingle c pos pos' q callee args rest hargs hrest hbinds
    refine ⟨hagree.result_eq, fun t ht => ⟨?_, hagree.literals_eq ht⟩⟩
    -- Both blocks give back the scope they were started in.
    have hflat : flat.2.scope = c.scope := (Lower.block_framed _ c).scope_eq ht
    have hnested : nested.2.scope = c.scope :=
      (Lower.block_framed _ c).scope_eq (hagree.result_eq.symm.trans ht)
    rw [hflat, hnested]
  · -- programs
    intro settings file pos pos' q callee args rest hargs hrest hbinds
    exact Node.lowerAll_eq_of_agree (hsingle _ pos pos' q callee args rest hargs hrest hbinds) file
  · -- sequences of calls
    intro settings file items items' hnests hbinds
    exact Node.lowerAll_eq_of_agree (Lower.nests_agree hnests _ hbinds) file

/-- Two bindings of a macro, an ordinary name that binds, and the nested form of the three. -/
theorem block_call_append_block_three_calls :
    let settings : Settings := ⟨[(.macroName, "let"), (.ordinary, "f")], "!"⟩
    let a := Node.bind 0 "a"
    let b := Node.bind 0 "b"
    let e := Node.bind 0 "e"
    let last := Node.callNamed 0 "f" [.var 0 "a", .var 0 "b", .var 0 "e"]
    (Node.lowerAll settings 0
        [.callNamed 0 "let" [a, .var 0 "f"], .callNamed 0 "let" [b, .var 0 "a"],
          .callNamed 0 "f" [e], last]).1 =
      (Node.lowerAll settings 0
        [.callNamed 0 "let" [a, .var 0 "f", .block 0 [.callNamed 0 "let" [b, .var 0 "a",
          .block 0 [.callNamed 0 "f" [e, .block 0 [last]]]]]]]).1 :=
  block_call_append_block.2.2 _ 0 _ _
    (.call nofun nofun (.call nofun nofun (.call nofun nofun (.same _)))) (by cbv)

end Unsugar
