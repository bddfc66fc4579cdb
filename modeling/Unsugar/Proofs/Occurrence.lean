import Unsugar.Builtin
import Unsugar.Lowering.Fold
import Unsugar.Program

/-!
# Occurrences in terms

`Term.Occurs s b t` says that `s` stands in `t` under `b` binders. From it come the leaves of a term
(`Term.mem_leaves_iff`), the indices by which it reaches outside itself (`Term.Free`), and the terms
that reach no further than `n` names out (`Term.Scoped n`), which are those that `Term.check` accepts.

## Key results

- `Term.scan_spec`: the scan gives its depth back, and its number bounds the free indices
- `Term.scoped_iff_maxFree`: the largest free index decides whether a term is scoped
- `Term.check_eq_ok_iff`: the check accepts the scoped abstractions
- `BlockStep.scoped_chain`, `BlockStep.mem_leaves_chain`: scoping and leaves of a block
-/

namespace Unsugar

namespace Term

/-- A term stands in another one under a number of binders: one for each abstraction around it, and
    two for each self-referential abstraction. -/
inductive Occurs (s : Term) : Nat → Term → Prop where
  | here : Occurs s 0 s
  | inside {b : Nat} {u t : Term} (hu : u ∈ t.children) (h : Occurs s b u) :
      Occurs s (t.binders + b) t

/-- `Occurs` by cases: `s` is the term itself, or stands in one of the `children` under that many fewer
    binders. -/
theorem occurs_iff {s t : Term} {b : Nat} :
    Occurs s b t ↔ (b = 0 ∧ s = t) ∨ ∃ u ∈ t.children, ∃ b', b = t.binders + b' ∧ Occurs s b' u := by
  constructor
  · intro h
    cases h with
    | here => exact .inl ⟨rfl, rfl⟩
    | inside hu h => exact .inr ⟨_, hu, _, rfl, h⟩
  · intro h
    rcases h with ⟨rfl, rfl⟩ | ⟨u, hu, b', rfl, h⟩
    · exact .here
    · exact .inside hu h

/-- Induction over terms that treats all forms alike: a term has what all its `children` have. -/
theorem induct_children {P : Term → Prop} (step : ∀ t, (∀ u ∈ t.children, P u) → P t) (t : Term) :
    P t :=
  step t fun u _hu => induct_children step u
termination_by sizeOf t
decreasing_by exact sizeOf_lt_of_mem_children _hu

/-! ## Leaves -/

/-- The variables, literals and effects of a term from left to right. -/
def leaves : Term → List Term
  | .var i => [.var i]
  | .lit i => [.lit i]
  | .effect i => [.effect i]
  | .abs b | .fix b | .typeOf b => b.leaves
  | .app f x => f.leaves ++ x.leaves
  | .unpack v c o => v.leaves ++ c.leaves ++ o.leaves
  | .handle b h => b.leaves ++ h.leaves
  | .compare l r e o => l.leaves ++ r.leaves ++ e.leaves ++ o.leaves

/-- `leaves` of a term with parts: the leaves of its `children`, one after the other. -/
theorem leaves_eq_flatMap {t : Term} (ht : t.children ≠ []) :
    t.leaves = t.children.flatMap leaves := by
  cases t <;> simp [leaves, children] at ht ⊢

/-- `occurs_iff` without the number of binders. -/
theorem exists_occurs_iff {s t : Term} :
    (∃ b, Occurs s b t) ↔ s = t ∨ ∃ u ∈ t.children, ∃ b, Occurs s b u := by
  constructor
  · intro h
    obtain ⟨b, h⟩ := h
    rcases occurs_iff.1 h with ⟨-, rfl⟩ | ⟨u, hu, b', -, h'⟩
    · exact .inl rfl
    · exact .inr ⟨u, hu, b', h'⟩
  · intro h
    rcases h with rfl | ⟨u, hu, b, h⟩
    · exact ⟨0, .here⟩
    · exact ⟨_, .inside hu h⟩

/-- `leaves` lists the terms without parts that occur in a term. By induction over the `children`. -/
theorem mem_leaves_iff {s t : Term} : s ∈ t.leaves ↔ s.children = [] ∧ ∃ b, Occurs s b t := by
  induction t using induct_children with
  | _ t ih =>
    by_cases ht : t.children = []
    · -- The term is a leaf itself, and nothing else stands in it.
      have hleaf : t.leaves = [t] := by cases t <;> simp [leaves, children] at ht ⊢
      rw [hleaf, List.mem_singleton, exists_occurs_iff]
      simp +contextual [ht]
    · -- A leaf stands in one of the parts.
      rw [leaves_eq_flatMap ht, List.mem_flatMap, exists_occurs_iff]
      constructor
      · intro h
        obtain ⟨u, hu, hs⟩ := h
        obtain ⟨hleaf, h⟩ := (ih u hu).1 hs
        exact ⟨hleaf, .inr ⟨u, hu, h⟩⟩
      · intro h
        obtain ⟨hleaf, h⟩ := h
        rcases h with rfl | ⟨u, hu, h⟩
        · exact absurd hleaf ht
        · exact ⟨u, hu, (ih u hu).2 ⟨hleaf, h⟩⟩

theorem leaves_abstracted (n : Nat) (t : Term) : (t.abstracted n).leaves = t.leaves := by
  induction n with
  | zero => rfl
  | succ n ih => exact ih

/-- `leaves` of `appAll`: those of the function and then those of the arguments. -/
theorem leaves_appAll (fn : Term) (ts : List Term) :
    (fn.appAll ts).leaves = fn.leaves ++ ts.flatMap leaves := by
  induction ts generalizing fn with
  | nil => exact (List.append_nil _).symm
  | cons t rest ih =>
    -- `appAll` is a fold from the left, so the induction generalizes the function.
    have hstep : fn.appAll (t :: rest) = (Term.app fn t).appAll rest := rfl
    rw [hstep, ih, leaves, List.flatMap_cons, List.append_assoc]

/-- `leaves` of `list`: those of its members, and the `nil` at its end. -/
theorem leaves_list (ts : List Term) :
    (list ts).leaves = ts.flatMap leaves ++ [.reserved .nil] := by
  induction ts with
  | nil => rfl
  | cons t rest ih =>
    have hstep : list (t :: rest) = .app t (list rest) := rfl
    rw [hstep, leaves, ih, List.flatMap_cons, List.append_assoc]

/-! ## Free indices -/

/-- A variable of the term refers to the index `j` outside of it. -/
def Free (j : Nat) (t : Term) : Prop := ∃ b, Occurs (.var (b + j)) b t

/-- The only free index of a variable is its own. -/
@[simp] theorem free_var (j i : Nat) : Free j (.var i) ↔ i = j := by
  constructor
  · intro h
    obtain ⟨b, h⟩ := h
    rcases occurs_iff.1 h with ⟨rfl, h⟩ | ⟨u, hu, -⟩
    · cases h
      exact Nat.zero_add j
    · cases hu
  · intro h
    subst h
    exact ⟨0, by rw [Nat.zero_add]; exact .here⟩

/-- `Free` below binders: the indices of the `children` are counted from `t.binders` further in. -/
theorem free_iff_children {t : Term} (ht : ∀ i, t ≠ .var i) (j : Nat) :
    Free j t ↔ ∃ u ∈ t.children, Free (j + t.binders) u := by
  constructor
  · intro h
    obtain ⟨b, h⟩ := h
    -- A term that is no variable has the occurrence in one of its parts.
    rcases occurs_iff.1 h with ⟨-, h⟩ | ⟨u, hu, b', rfl, h⟩
    · exact absurd h.symm (ht _)
    · refine ⟨u, hu, b', ?_⟩
      rwa [show b' + (j + t.binders) = t.binders + b' + j by omega]
  · intro h
    obtain ⟨u, hu, b, h⟩ := h
    refine ⟨t.binders + b, .inside hu ?_⟩
    rwa [show t.binders + b + j = b + (j + t.binders) by omega]

/-- All free indices of a term are below `n`. -/
def Scoped (n : Nat) (t : Term) : Prop := ∀ j, t.Free j → j < n

/-- `Scoped` is monotone in the number of names around. -/
theorem Scoped.mono {m n : Nat} {t : Term} (h : t.Scoped m) (hmn : m ≤ n) : t.Scoped n :=
  fun j hj => Nat.lt_of_lt_of_le (h j hj) hmn

@[simp] theorem scoped_var (n i : Nat) : Scoped n (.var i) ↔ i < n := by
  simp [Scoped]

/-- `Scoped` of a term with parts: its `children` are scoped under `t.binders` more names. -/
theorem scoped_iff_children (t : Term) (ht : ∀ i, t ≠ .var i) (n : Nat) :
    Scoped n t ↔ ∀ u ∈ t.children, Scoped (n + t.binders) u := by
  constructor
  · intro h u hu j hj
    by_cases hlt : j < t.binders
    · -- an index that the term binds itself
      omega
    · -- an index that reaches out of the term
      have hfree : Free (j - t.binders) t := by
        rw [free_iff_children ht]
        exact ⟨u, hu, by rwa [Nat.sub_add_cancel (Nat.le_of_not_lt hlt)]⟩
      have := h _ hfree
      omega
  · intro h j hj
    obtain ⟨u, hu, hfree⟩ := (free_iff_children ht j).1 hj
    have := h u hu _ hfree
    omega

@[simp] theorem scoped_lit (n i : Nat) : Scoped n (.lit i) := by
  rw [scoped_iff_children (.lit i) nofun]
  nofun

@[simp] theorem scoped_effect (n i : Nat) : Scoped n (.effect i) := by
  rw [scoped_iff_children (.effect i) nofun]
  nofun

/-- `Scoped` of an abstraction: one more name for its body. -/
@[simp] theorem scoped_abs (n : Nat) (b : Term) : Scoped n (.abs b) ↔ Scoped (n + 1) b := by
  rw [scoped_iff_children (.abs b) nofun]
  simp [children, binders]

/-- `Scoped` of a self-referential abstraction: two more names for its body. -/
@[simp] theorem scoped_fix (n : Nat) (b : Term) : Scoped n (.fix b) ↔ Scoped (n + 2) b := by
  rw [scoped_iff_children (.fix b) nofun]
  simp [children, binders]

@[simp] theorem scoped_app (n : Nat) (f x : Term) :
    Scoped n (.app f x) ↔ Scoped n f ∧ Scoped n x := by
  rw [scoped_iff_children (.app f x) nofun]
  simp [children, binders]

@[simp] theorem scoped_typeOf (n : Nat) (v : Term) : Scoped n (.typeOf v) ↔ Scoped n v := by
  rw [scoped_iff_children (.typeOf v) nofun]
  simp [children, binders]

@[simp] theorem scoped_unpack (n : Nat) (v c o : Term) :
    Scoped n (.unpack v c o) ↔ Scoped n v ∧ Scoped n c ∧ Scoped n o := by
  rw [scoped_iff_children (.unpack v c o) nofun]
  simp [children, binders]

@[simp] theorem scoped_handle (n : Nat) (b h : Term) :
    Scoped n (.handle b h) ↔ Scoped n b ∧ Scoped n h := by
  rw [scoped_iff_children (.handle b h) nofun]
  simp [children, binders]

@[simp] theorem scoped_compare (n : Nat) (l r e o : Term) :
    Scoped n (.compare l r e o) ↔ Scoped n l ∧ Scoped n r ∧ Scoped n e ∧ Scoped n o := by
  rw [scoped_iff_children (.compare l r e o) nofun]
  simp [children, binders]

/-! ## Scoping of assembled terms -/

/-- `tagged` adds no free index. -/
@[simp] theorem scoped_tagged (n : Nat) (r : Reserved) (t : Term) :
    Scoped n (t.tagged r) ↔ Scoped n t := by
  simp [tagged, reserved]

/-- `Scoped` of `abstracted`: `m` more names for the term inside. -/
theorem scoped_abstracted (m n : Nat) (t : Term) :
    Scoped n (t.abstracted m) ↔ Scoped (n + m) t := by
  induction m generalizing n with
  | zero => rfl
  | succ m ih =>
    rw [abstracted, scoped_abs, ih, show n + 1 + m = n + (m + 1) by omega]

/-- `Scoped` of `appAll`: the function and all arguments are scoped. -/
theorem scoped_appAll (n : Nat) (fn : Term) (ts : List Term) :
    Scoped n (fn.appAll ts) ↔ Scoped n fn ∧ ∀ t ∈ ts, Scoped n t := by
  induction ts generalizing fn with
  | nil => simp [appAll]
  | cons t rest ih =>
    have hstep : fn.appAll (t :: rest) = (Term.app fn t).appAll rest := rfl
    rw [hstep, ih, scoped_app]
    simp [and_assoc]

/-- `Scoped` of `list`: all members are scoped. -/
theorem scoped_list (n : Nat) (ts : List Term) : Scoped n (list ts) ↔ ∀ t ∈ ts, Scoped n t := by
  induction ts with
  | nil => simp [list, reserved]
  | cons t rest ih =>
    have hstep : list (t :: rest) = .app t (list rest) := rfl
    rw [hstep, scoped_app, ih]
    simp

/-! ## The check -/

/-- A bound of the largest index after `encounter` is one before it that the new variable keeps to as
    well. -/
theorem forall_mem_encounter (s : FreeScan) (i n : Nat) :
    (∀ j ∈ (s.encounter i).largest, j < n) ↔ (∀ j ∈ s.largest, j < n) ∧ i < n + s.depth := by
  obtain ⟨depth, largest⟩ := s
  by_cases hfree : depth ≤ i
  · -- A free variable is compared with the largest index so far, if there is one.
    cases largest with
    | none =>
      simp only [FreeScan.encounter, hfree, if_true, Option.elim_none, Option.mem_def,
        Option.some.injEq, forall_eq', reduceCtorEq, false_implies, implies_true, true_and]
      omega
    | some m =>
      simp only [FreeScan.encounter, hfree, if_true, Option.elim_some, Option.mem_def,
        Option.some.injEq, forall_eq', Nat.max_lt]
      omega
  · -- A variable below the depth is bound inside and changes nothing.
    have hbound : i < n + depth := by omega
    simp [FreeScan.encounter, hfree, hbound]

/-- `scan` of a term that is no variable goes through its `children` below its `binders`. -/
theorem scan_eq_foldl {t : Term} (ht : ∀ i, t ≠ .var i) (s : FreeScan) :
    t.scan s = (t.children.foldl (fun s u => u.scan s) (s.enter t.binders)).leave t.binders := by
  rw [scan.eq_def]
  split
  · next i => exact absurd rfl (ht i)
  · exact congrArg (FreeScan.leave · t.binders) (List.foldl_attach (f := fun s u => scan u s))

/-- A scan gives the depth back that it was given, and what it then has as its largest index bounds
    what it had before and the free indices of the term. -/
def ScanSpec (t : Term) : Prop :=
  ∀ s : FreeScan, (t.scan s).depth = s.depth ∧
    ∀ n, (∀ i ∈ (t.scan s).largest, i < n) ↔
      (∀ i ∈ s.largest, i < n) ∧ Scoped (n + s.depth) t

/-- `ScanSpec` passes through a list of terms that are scanned one after the other. -/
theorem foldl_scan {ts : List Term} (hts : ∀ u ∈ ts, ScanSpec u) (s : FreeScan) :
    (ts.foldl (fun s u => u.scan s) s).depth = s.depth ∧
      ∀ n, (∀ i ∈ (ts.foldl (fun s u => u.scan s) s).largest, i < n) ↔
        (∀ i ∈ s.largest, i < n) ∧ ∀ u ∈ ts, Scoped (n + s.depth) u := by
  induction ts generalizing s with
  | nil => simp
  | cons t rest ih =>
    obtain ⟨ht, hrest⟩ := List.forall_mem_cons.1 hts
    obtain ⟨hdepth, hlargest⟩ := ht s
    obtain ⟨hdepth', hlargest'⟩ := ih hrest (t.scan s)
    rw [List.foldl_cons]
    refine ⟨hdepth'.trans hdepth, fun n => ?_⟩
    -- The rest starts from the depth that the first term gave back.
    rw [hlargest', hlargest, hdepth, List.forall_mem_cons, and_assoc]

/-- Every term meets `ScanSpec`: variables by `encounter`, and the others by their parts, whose binders
    are opened before and closed after. -/
theorem scan_spec (t : Term) : ScanSpec t := by
  induction t using induct_children with
  | _ t ih =>
    intro s
    by_cases ht : ∃ i, t = .var i
    · -- a variable
      obtain ⟨i, rfl⟩ := ht
      rw [scan]
      refine ⟨?_, fun n => by rw [forall_mem_encounter, scoped_var]⟩
      rw [FreeScan.encounter]
      split <;> rfl
    · -- a term with parts
      have ht' : ∀ i, t ≠ .var i := fun i h => ht ⟨i, h⟩
      obtain ⟨hdepth, hlargest⟩ := foldl_scan ih (s.enter t.binders)
      rw [scan_eq_foldl ht']
      refine ⟨?_, fun n => ?_⟩
      · show _ - t.binders = s.depth
        rw [hdepth]
        exact Nat.add_sub_cancel s.depth t.binders
      · rw [scoped_iff_children t ht', Nat.add_assoc]
        exact hlargest n

/-- `maxFree` decides `Scoped`: it is what `scan` finds from the depth 0. -/
theorem scoped_iff_maxFree (t : Term) (n : Nat) : Scoped n t ↔ ∀ i ∈ t.maxFree, i < n := by
  have hscan := (scan_spec t {}).2 n
  rw [maxFree, hscan]
  simp

/-- `check` accepts the abstractions that are `Scoped` under the names around them. -/
theorem check_eq_ok_iff (t : Term) (names : Nat) :
    t.check names = .ok () ↔ t.isAbs ∧ t.Scoped names := by
  rw [check, scoped_iff_maxFree]
  cases t.isAbs with
  | false => simp
  | true =>
    cases t.maxFree with
    | none => simp
    | some i => by_cases h : i < names <;> simp [h]

end Term

/-- `Builtin.term` is closed: each body uses the arguments that `abstracted` binds. -/
theorem Builtin.scoped_term (b : Builtin) (n : Nat) : b.term.Scoped n := by
  have h : b.term.Scoped 0 := by
    rw [Builtin.term, Term.scoped_abstracted]
    cases b <;> simp [Builtin.body, Builtin.arity]
  exact h.mono (Nat.zero_le n)

/-! ## Blocks -/

namespace BlockStep

/-- Each item is scoped under the names outside the block and those that it and the items before it
    opened. -/
def ScopedFrom (n : Nat) : List BlockStep → Prop
  | [] => True
  | step :: rest =>
    step.term.Scoped (n + max 1 step.opened) ∧ ScopedFrom (n + max 1 step.opened) rest

/-- `chain` of an item and at least one more, by whether the next item opened a name. -/
theorem chain_cons_cons (step next : BlockStep) (rest : List BlockStep) :
    chain (step :: next :: rest) =
      (if next.opened = 0 then Term.app (chain (next :: rest)) step.term
        else .app step.term (chain (next :: rest))).abstracted (max 1 step.opened) := rfl

/-- `chain` reaches no further out than its items do. By induction on the items, each under the names
    of those before it. -/
theorem scoped_chain (steps : List BlockStep) (n : Nat) (h : ScopedFrom n steps) :
    (chain steps).Scoped n := by
  induction steps generalizing n with
  | nil => simp [chain, Term.reserved]
  | cons step rest ih =>
    obtain ⟨hstep, hrest⟩ := h
    cases rest with
    | nil => rwa [chain, Term.scoped_abstracted]
    | cons next rest =>
      have hlater := ih _ hrest
      rw [chain_cons_cons, Term.scoped_abstracted]
      -- The item is the argument of the rest or the other way round; the names around are the same.
      split
      · exact (Term.scoped_app _ _ _).2 ⟨hlater, hstep⟩
      · exact (Term.scoped_app _ _ _).2 ⟨hstep, hlater⟩

/-- `chain` is an abstraction: even an item that opened nothing has one around it. -/
theorem isAbs_chain {steps : List BlockStep} (h : steps ≠ []) : (chain steps).isAbs := by
  have habs (t : Term) (n : Nat) : (t.abstracted (max 1 n)).isAbs := by
    obtain ⟨m, hm⟩ : ∃ m, max 1 n = m + 1 := ⟨max 1 n - 1, by omega⟩
    rw [hm]
    rfl
  match steps, h with
  | [step], _ => exact habs _ _
  | step :: next :: rest, _ => exact habs _ _

/-- `leaves` of `chain`: those of the items, in some order. By induction on the items. -/
theorem leaves_chain_perm {steps : List BlockStep} (h : steps ≠ []) :
    (chain steps).leaves.Perm (steps.flatMap (·.term.leaves)) := by
  induction steps with
  | nil => exact absurd rfl h
  | cons step rest ih =>
    cases rest with
    | nil => rw [chain, Term.leaves_abstracted, List.flatMap_cons, List.flatMap_nil, List.append_nil]
    | cons next rest =>
      have hlater := ih (List.cons_ne_nil _ _)
      rw [chain_cons_cons, Term.leaves_abstracted, List.flatMap_cons]
      -- The rest stands before or after the item.
      split
      · exact (hlater.append_right _).trans List.perm_append_comm
      · exact hlater.append_left _

theorem mem_leaves_chain {s : Term} {steps : List BlockStep} (h : steps ≠ []) :
    s ∈ (chain steps).leaves ↔ s ∈ steps.flatMap (·.term.leaves) :=
  (leaves_chain_perm h).mem_iff

end BlockStep

end Unsugar
