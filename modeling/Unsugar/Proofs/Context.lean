import Unsugar.Lowering.Context

/-!
# What the operations on a context keep

Opening a scope has one equation, from which its effect on each field is read off. All other
operations on a context touch a field or two. `Context.Grows` collects what every one of them keeps
except the closing of a block: the scope is only added to at its inner end, the literal table only at
its end, and the effect suffix stays.
-/

namespace Unsugar

/-! ## Opening a scope -/

/-- The entries that a queue becomes, innermost first: the binding that was queued first is the
    outermost. -/
def Pending.openedEntries (queue : List Pending) : List ScopeEntry :=
  if queue.isEmpty then [.placeholder] else (queue.map Pending.entry).reverse

/-- `openedEntries` has one entry for each binding of the queue, and at least one. -/
@[simp] theorem Pending.length_openedEntries (queue : List Pending) :
    (openedEntries queue).length = max 1 queue.length := by
  cases queue with
  | nil => rfl
  | cons b rest => simp [openedEntries]

/-- `LiteralTable.get?` finds a literal at the same place in a table that was only added to. -/
theorem LiteralTable.get?_of_prefix {t t' : LiteralTable} (h : t.toList <+: t'.toList) {i : Nat}
    {l : Literal} (hl : t.get? i = some l) : t'.get? i = some l := by
  obtain ⟨hi, rfl⟩ := List.getElem?_eq_some_iff.1 hl
  exact List.prefix_iff_getElem?.1 h i hi

namespace Context

/-- `bindName` over a queue pushes its entries in order and reports them. By induction on the queue. -/
theorem foldl_bindName (queue : List Pending) (c : Context) :
    queue.foldl bindName c =
      { c with
        scope := ⟨(queue.map Pending.entry).reverse ++ c.scope.entries⟩
        events := (queue.map fun b => Event.opened b.name).reverse ++ c.events } := by
  induction queue generalizing c with
  | nil => rfl
  | cons b rest ih =>
    rw [List.foldl_cons, ih]
    simp [bindName, Scope.push]

/-- `openScope` in one equation: it gives the queue, empties it, and puts `openedEntries` in front of
    the scope. -/
theorem openScope_eq (c : Context) :
    c.openScope =
      (c.pending,
        { c with
          scope := ⟨Pending.openedEntries c.pending ++ c.scope.entries⟩
          pending := []
          events := (c.pending.map fun b => Event.opened b.name).reverse ++ c.events }) := by
  obtain ⟨scope, pending, literals, effectSuffix, events⟩ := c
  -- The two cases of `openScope`: without a queue it pushes the placeholder.
  cases pending with
  | nil => rfl
  | cons b rest =>
    simp only [openScope, foldl_bindName]
    simp [Pending.openedEntries]

@[simp] theorem openScope_fst (c : Context) : c.openScope.1 = c.pending := by
  rw [openScope_eq]

@[simp] theorem scope_openScope (c : Context) :
    c.openScope.2.scope = ⟨Pending.openedEntries c.pending ++ c.scope.entries⟩ := by
  rw [openScope_eq]

@[simp] theorem pending_openScope (c : Context) : c.openScope.2.pending = [] := by
  rw [openScope_eq]

@[simp] theorem literals_openScope (c : Context) : c.openScope.2.literals = c.literals := by
  rw [openScope_eq]

@[simp] theorem effectSuffix_openScope (c : Context) :
    c.openScope.2.effectSuffix = c.effectSuffix := by
  rw [openScope_eq]

/-- `openScope` makes the scope deeper by one entry for each queued binding, and by at least one. -/
theorem depth_openScope (c : Context) :
    c.openScope.2.scope.depth = c.scope.depth + max 1 c.pending.length := by
  rw [scope_openScope, Scope.depth, List.length_append, Pending.length_openedEntries, Scope.depth,
    Nat.add_comm]

/-! ## The initial context -/

/-- The scope of `Context.initial` is the prelude, its last name innermost. -/
theorem scope_initial (settings : Settings) :
    (initial settings).scope =
      ⟨(settings.prelude.map fun p => ScopeEntry.named p.1 p.2).reverse⟩ := by
  -- For the induction, the fold over the prelude may start from any scope.
  have hfold (prelude : List (NameKind × String)) (s : Scope) :
      prelude.foldl (fun s p => s.push (.named p.1 p.2)) s =
        ⟨(prelude.map fun p => ScopeEntry.named p.1 p.2).reverse ++ s.entries⟩ := by
    induction prelude generalizing s with
    | nil => rfl
    | cons p rest ih =>
      rw [List.foldl_cons, ih]
      simp [Scope.push]
  rw [initial, hfold]
  simp [Scope.empty]

/-- The scope of `Context.initial` is as deep as the prelude is long. -/
theorem depth_initial (settings : Settings) :
    (initial settings).scope.depth = settings.prelude.length := by
  rw [scope_initial, Scope.depth]
  simp

/-! ## Growth -/

/-- A context that a computation without an end of block can reach from another one. -/
structure Grows (c c' : Context) : Prop where
  scope : c.scope.entries <:+ c'.scope.entries
  literals : c.literals.toList <+: c'.literals.toList
  nodup : c.literals.toList.Nodup → c'.literals.toList.Nodup
  effectSuffix : c'.effectSuffix = c.effectSuffix

theorem Grows.refl (c : Context) : Grows c c :=
  ⟨List.suffix_refl _, List.prefix_refl _, id, rfl⟩

/-- `Grows` is transitive. -/
theorem Grows.trans {a b c : Context} (hab : Grows a b) (hbc : Grows b c) : Grows a c where
  scope := hab.scope.trans hbc.scope
  literals := hab.literals.trans hbc.literals
  nodup := fun h => hbc.nodup (hab.nodup h)
  effectSuffix := hbc.effectSuffix.trans hab.effectSuffix

/-- An operation on the queue or on the events alone is a case of `Grows`. -/
theorem Grows.of_eq {c c' : Context} (hs : c'.scope = c.scope) (hl : c'.literals = c.literals)
    (he : c'.effectSuffix = c.effectSuffix) : Grows c c' where
  scope := by simp only [hs, List.suffix_rfl]
  literals := by simp only [hl, List.prefix_rfl]
  nodup := by rw [hl]; exact id
  effectSuffix := he

/-- A literal keeps its place along `Grows`. -/
theorem Grows.get? {c c' : Context} (h : Grows c c') {i : Nat} {l : Literal}
    (hl : c.literals.get? i = some l) : c'.literals.get? i = some l :=
  LiteralTable.get?_of_prefix h.literals hl

/-- The literal table does not get smaller along `Grows`. -/
theorem Grows.size_le {c c' : Context} (h : Grows c c') : c.literals.size ≤ c'.literals.size :=
  h.literals.length_le

/-- `Context.intern` adds to the literal table only. -/
theorem grows_intern (c : Context) (l : Literal) : Grows c (c.intern l).2 where
  scope := List.suffix_refl _
  literals := LiteralTable.prefix_toList_intern c.literals l
  nodup := fun h => LiteralTable.nodup_toList_intern h l
  effectSuffix := rfl

/-- `Context.record` is a change of the queue and the events, followed by `Context.intern`. -/
theorem grows_record (c : Context) (b : Pending) : Grows c (c.record b).2 := by
  let queued := { c.note (.queued b.name b.level b.kind) with pending := c.pending ++ [b] }
  have h : Grows c queued := .of_eq rfl rfl rfl
  exact h.trans (grows_intern queued (.atom b.name))

/-- `openScope` adds to the inner end of the scope. -/
theorem grows_openScope (c : Context) : Grows c c.openScope.2 where
  scope := by rw [scope_openScope]; exact List.suffix_append _ _
  literals := by simp only [literals_openScope, List.prefix_rfl]
  nodup := by rw [literals_openScope]; exact id
  effectSuffix := effectSuffix_openScope c

end Context

end Unsugar
