import Mathlib
import Unsugar.Proofs.Occurrence

/-!
# The largest free index

`Term.maxFree` is what `Term.scan` has found at its end: one pass over the term, with a running depth,
that keeps one number. Beside it stand the occurrences of variables: an index that reaches past the
binders around it is free, by the distance it reaches. The bounds of the two are the same
(`Term.scan_spec`, `Term.scoped_iff_maxFree`), so that the number is the greatest free index, and
`Term.check` decides scoping for every term, also for one that no program is lowered to.

## Key results

- `Term.maxFree_eq_some_iff`, `Term.maxFree_eq_none_iff`: the scan finds the greatest free index
- `Term.scoped_iff_occurs`: scoping said of each variable where it stands
- `Term.maxFree_abstracted`: what abstractions around a term leave of its largest free index
-/

namespace Unsugar

namespace Term

/-! ## Variables where they stand -/

/-- `Free` by subtraction: a free index is the distance by which a variable reaches past the binders
    around it. -/
theorem free_iff_exists_sub {t : Term} {j : Nat} :
    Free j t ↔ ∃ b i, Occurs (.var i) b t ∧ b ≤ i ∧ j = i - b := by
  constructor
  · intro h
    obtain ⟨b, h⟩ := h
    exact ⟨b, b + j, h, Nat.le_add_right b j, (Nat.add_sub_cancel_left b j).symm⟩
  · intro h
    obtain ⟨b, i, h, hle, rfl⟩ := h
    refine ⟨b, ?_⟩
    rwa [Nat.add_sub_cancel' hle]

/-- `Scoped n` of each variable where it occurs: it is bound inside the term or by one of the `n` names
    around. -/
theorem scoped_iff_occurs {n : Nat} {t : Term} :
    Scoped n t ↔ ∀ b i, Occurs (.var i) b t → i < b + n := by
  constructor
  · intro h b i hi
    -- A variable below `b` is bound inside the term; the others are free.
    by_cases hle : b ≤ i
    · have hfree : Free (i - b) t := free_iff_exists_sub.2 ⟨b, i, hi, hle, rfl⟩
      have := h _ hfree
      omega
    · omega
  · intro h j hj
    obtain ⟨b, i, hi, hle, rfl⟩ := free_iff_exists_sub.1 hj
    have := h b i hi
    omega

theorem isAbs_iff {t : Term} : t.isAbs ↔ ∃ body, t = .abs body := by
  cases t <;> simp [isAbs]

/-! ## The scan finds the greatest free index -/

/-- `maxFree` is `none` if and only if no index is free: `none` is what the bound 0 allows. -/
theorem maxFree_eq_none_iff {t : Term} : t.maxFree = none ↔ ∀ j, ¬ t.Free j := by
  constructor
  · intro h j hj
    have hclosed : Scoped 0 t := by
      rw [scoped_iff_maxFree, h]
      simp
    exact Nat.not_lt_zero j (hclosed j hj)
  · intro h
    have hclosed : Scoped 0 t := fun j hj => absurd hj (h j)
    -- Whatever the scan found would be below 0.
    rw [scoped_iff_maxFree] at hclosed
    cases hm : t.maxFree with
    | none => rfl
    | some m => exact absurd (hclosed m hm) (Nat.not_lt_zero m)

/-- What `maxFree` finds is the greatest of the free indices. -/
theorem isGreatest_of_maxFree {t : Term} {m : Nat} (h : t.maxFree = some m) :
    IsGreatest {j | t.Free j} m := by
  -- The term is scoped under `m + 1` names and not under `m`, so some index is exactly `m`.
  have hbound : Scoped (m + 1) t := by
    rw [scoped_iff_maxFree, h]
    simp
  have hsharp : ¬ Scoped m t := by
    rw [scoped_iff_maxFree, h]
    simp
  obtain ⟨j, hj, hle⟩ : ∃ j, t.Free j ∧ m ≤ j := by
    simpa [Scoped] using hsharp
  have hlt := hbound j hj
  obtain rfl : j = m := by omega
  exact ⟨hj, fun k hk => Nat.le_of_lt_succ (hbound k hk)⟩

/-- `maxFree` finds `m` if and only if `m` is the greatest of the free indices, of which there is at
    most one. -/
theorem maxFree_eq_some_iff {t : Term} {m : Nat} :
    t.maxFree = some m ↔ IsGreatest {j | t.Free j} m := by
  refine ⟨isGreatest_of_maxFree, fun h => ?_⟩
  cases hm : t.maxFree with
  | none => exact absurd h.1 (maxFree_eq_none_iff.1 hm m)
  | some m' => rw [(isGreatest_of_maxFree hm).unique h]

/-! ## Abstractions around a term -/

theorem free_abs (j : Nat) (b : Term) : Free j (.abs b) ↔ Free (j + 1) b := by
  rw [free_iff_children (by simp)]
  simp [children, binders]

/-- `Free` below `n` abstractions: an index reaches out by `n` less. -/
theorem free_abstracted (n j : Nat) (t : Term) : Free j (t.abstracted n) ↔ Free (j + n) t := by
  induction n generalizing j with
  | zero => rfl
  | succ n ih => rw [abstracted, free_abs, ih, show j + 1 + n = j + (n + 1) by omega]

/-- `maxFree` of `abstracted`: lowered by `n`, or `none` if the `n` abstractions bind all that was
    free. -/
theorem maxFree_abstracted (n : Nat) (t : Term) :
    (t.abstracted n).maxFree = t.maxFree.bind fun m => if n ≤ m then some (m - n) else none := by
  cases hm : t.maxFree with
  | none =>
    rw [Option.bind_none, maxFree_eq_none_iff]
    intro j hj
    exact maxFree_eq_none_iff.1 hm _ ((free_abstracted n j t).1 hj)
  | some m =>
    obtain ⟨hfree, hgreatest⟩ := isGreatest_of_maxFree hm
    -- Whatever is free outside the abstractions is at most `m` inside them.
    have hle (j : Nat) (hj : (t.abstracted n).Free j) : j + n ≤ m :=
      hgreatest ((free_abstracted n j t).1 hj)
    rw [Option.bind_some]
    split
    · next hn =>
      -- The greatest index still reaches out.
      refine maxFree_eq_some_iff.2 ⟨?_, fun j hj => Nat.le_sub_of_add_le (hle j hj)⟩
      show (t.abstracted n).Free (m - n)
      rwa [free_abstracted, Nat.sub_add_cancel hn]
    · next hn =>
      -- All free indices are bound.
      refine maxFree_eq_none_iff.2 fun j hj => ?_
      have := hle j hj
      omega

end Term

/-- `maxFree` and `check` decide scoping exactly. `maxFree` is the maximum of `i - b` over the variables
    `i` that stand under `b ≤ i` binders, and `none` if no variable does. So `check names` accepts the
    abstractions in which every variable `i` under `b` binders is below `b + names`. Putting `n`
    abstractions around a term lowers `maxFree` by `n`, and leaves `none` if it was less than that. -/
theorem maxFree_spec (t : Term) :
    (∀ m, t.maxFree = some m ↔
      IsGreatest {j | ∃ b i, Term.Occurs (.var i) b t ∧ b ≤ i ∧ j = i - b} m) ∧
    (t.maxFree = none ↔ ¬ ∃ b i, Term.Occurs (.var i) b t ∧ b ≤ i) ∧
    (∀ names, t.check names = .ok () ↔
      (∃ body, t = .abs body) ∧ ∀ b i, Term.Occurs (.var i) b t → i < b + names) ∧
    ∀ n, (t.abstracted n).maxFree =
      t.maxFree.bind fun m => if n ≤ m then some (m - n) else none := by
  refine ⟨?_, ?_, ?_, ?_⟩
  · -- the maximum
    intro m
    simp only [← Term.free_iff_exists_sub]
    exact Term.maxFree_eq_some_iff
  · -- no free variable
    rw [Term.maxFree_eq_none_iff]
    constructor
    · intro h hex
      obtain ⟨b, i, hi, hle⟩ := hex
      exact h _ (Term.free_iff_exists_sub.2 ⟨b, i, hi, hle, rfl⟩)
    · intro h j hj
      obtain ⟨b, i, hi, hle, -⟩ := Term.free_iff_exists_sub.1 hj
      exact h ⟨b, i, hi, hle⟩
  · -- the check
    intro names
    rw [Term.check_eq_ok_iff, Term.isAbs_iff, Term.scoped_iff_occurs]
  · -- abstractions
    intro n
    exact Term.maxFree_abstracted n t

end Unsugar
