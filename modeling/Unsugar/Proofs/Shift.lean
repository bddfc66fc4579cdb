import Unsugar.Proofs.Occurrence

/-!
# Shifting free indices

When names are put between those around a term, the indices that reach past them grow, and all others
stay. `Term.shift amount cutoff` does this to a term: `cutoff` is how many names stand inside of the
new ones, counted from the term outwards, so it grows by one under every abstraction and by two under
every self-referential one.

Shifting passes through every way in which lowering assembles terms, and leaves a term alone that
reaches no further than the cutoff.
-/

namespace Unsugar

namespace Term

/-- Moves the free indices from `cutoff` on out by `amount`. -/
def shift (amount cutoff : Nat) : Term → Term
  | .var i => .var (if i < cutoff then i else i + amount)
  | .lit i => .lit i
  | .effect i => .effect i
  | .abs b => .abs (b.shift amount (cutoff + 1))
  | .fix b => .fix (b.shift amount (cutoff + 2))
  | .app f x => .app (f.shift amount cutoff) (x.shift amount cutoff)
  | .typeOf v => .typeOf (v.shift amount cutoff)
  | .unpack v c o =>
    .unpack (v.shift amount cutoff) (c.shift amount cutoff) (o.shift amount cutoff)
  | .handle b h => .handle (b.shift amount cutoff) (h.shift amount cutoff)
  | .compare l r e o =>
    .compare (l.shift amount cutoff) (r.shift amount cutoff) (e.shift amount cutoff)
      (o.shift amount cutoff)

/-- `shift` leaves a term alone whose free indices are all below the cutoff. By induction on the term.
    -/
theorem shift_of_scoped {amount cutoff : Nat} {t : Term} (h : t.Scoped cutoff) :
    t.shift amount cutoff = t := by
  induction t generalizing cutoff with
  | var i =>
    -- Below the cutoff nothing moves; binders raise the cutoff and the bound alike.
    rw [scoped_var] at h
    rw [shift, if_pos h]
  | lit i | effect i => rfl
  | abs b ih =>
    rw [scoped_abs] at h
    rw [shift, ih h]
  | fix b ih =>
    rw [scoped_fix] at h
    rw [shift, ih h]
  | app f x ihf ihx =>
    rw [scoped_app] at h
    rw [shift, ihf h.1, ihx h.2]
  | typeOf v ih =>
    rw [scoped_typeOf] at h
    rw [shift, ih h]
  | unpack v c o ihv ihc iho =>
    rw [scoped_unpack] at h
    rw [shift, ihv h.1, ihc h.2.1, iho h.2.2]
  | handle b k ihb ihk =>
    rw [scoped_handle] at h
    rw [shift, ihb h.1, ihk h.2]
  | compare l r e o ihl ihr ihe iho =>
    rw [scoped_compare] at h
    rw [shift, ihl h.1, ihr h.2.1, ihe h.2.2.1, iho h.2.2.2]

/-! ## Assembled terms -/

variable (amount : Nat)

theorem shift_tagged (cutoff : Nat) (r : Reserved) (t : Term) :
    (t.tagged r).shift amount cutoff = (t.shift amount cutoff).tagged r := rfl

/-- `shift` of `abstracted`: the cutoff counts the abstractions that are passed. -/
theorem shift_abstracted (cutoff n : Nat) (t : Term) :
    (t.abstracted n).shift amount cutoff = (t.shift amount (cutoff + n)).abstracted n := by
  induction n generalizing cutoff with
  | zero => rfl
  | succ n ih =>
    rw [abstracted, shift, ih, abstracted, show cutoff + 1 + n = cutoff + (n + 1) by omega]

/-- `shift` of `appAll`. -/
theorem shift_appAll (cutoff : Nat) (fn : Term) (ts : List Term) :
    (fn.appAll ts).shift amount cutoff =
      (fn.shift amount cutoff).appAll (ts.map (shift amount cutoff)) := by
  induction ts generalizing fn with
  | nil => rfl
  | cons t rest ih =>
    have hstep : fn.appAll (t :: rest) = (Term.app fn t).appAll rest := rfl
    rw [hstep, ih]
    rfl

/-- `shift` of `list`. -/
theorem shift_list (cutoff : Nat) (ts : List Term) :
    (list ts).shift amount cutoff = list (ts.map (shift amount cutoff)) := by
  induction ts with
  | nil => rfl
  | cons t rest ih =>
    have hstep : list (t :: rest) = .app t (list rest) := rfl
    rw [hstep, shift, ih]
    rfl

end Term

/-- `shift` of a built-in operation: it is closed, so nothing in it moves. -/
@[simp] theorem Builtin.shift_term (amount cutoff : Nat) (b : Builtin) :
    b.term.shift amount cutoff = b.term :=
  Term.shift_of_scoped (b.scoped_term cutoff)

/-! ## Blocks -/

namespace BlockStep

/-- Shifts the items of a block, each behind the names that it and the items before it opened. -/
def shiftFrom (amount cutoff : Nat) : List BlockStep → List BlockStep
  | [] => []
  | step :: rest =>
    let inside := cutoff + max 1 step.opened
    ⟨step.opened, step.term.shift amount inside⟩ :: shiftFrom amount inside rest

theorem shiftFrom_cons (amount cutoff : Nat) (step : BlockStep) (rest : List BlockStep) :
    shiftFrom amount cutoff (step :: rest) =
      ⟨step.opened, step.term.shift amount (cutoff + max 1 step.opened)⟩ ::
        shiftFrom amount (cutoff + max 1 step.opened) rest := rfl

/-- `shiftFrom` keeps how many names the items opened. -/
@[simp] theorem map_opened_shiftFrom (amount cutoff : Nat) (steps : List BlockStep) :
    (shiftFrom amount cutoff steps).map opened = steps.map opened := by
  induction steps generalizing cutoff with
  | nil => rfl
  | cons step rest ih => rw [shiftFrom_cons, List.map_cons, List.map_cons, ih]

/-- `chain` of `shiftFrom` is `shift` of `chain`: the abstractions that a block puts around an item are
    those that its shift has passed. By induction on the items. -/
theorem chain_shiftFrom (amount cutoff : Nat) (steps : List BlockStep) :
    chain (shiftFrom amount cutoff steps) = (chain steps).shift amount cutoff := by
  induction steps generalizing cutoff with
  | nil => rfl
  | cons step rest ih =>
    cases rest with
    | nil =>
      rw [shiftFrom_cons, shiftFrom, chain, chain, Term.shift_abstracted]
    | cons next rest =>
      have hlater := ih (cutoff + max 1 step.opened)
      rw [shiftFrom_cons] at hlater
      rw [shiftFrom_cons, shiftFrom_cons, chain_cons_cons, chain_cons_cons, Term.shift_abstracted,
        hlater]
      -- Whether the rest is applied or is an argument depends on counts, which do not change.
      by_cases hnext : next.opened = 0
      · simp only [hnext, if_true, Term.shift]
      · simp only [hnext, if_false, Term.shift]

end BlockStep

end Unsugar
