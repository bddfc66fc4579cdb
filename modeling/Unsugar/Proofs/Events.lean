import Unsugar.Proofs.Run

/-!
# Events are never looked at

A context keeps the events of a run, but no computation of lowering depends on them: from contexts
that differ in their events only, it gives the same result and contexts that again differ in their
events only. A computation with this property is `Lower.Blind`. The property passes through sequences,
so it is shown of every step and then of lowering as a whole.
-/

namespace Unsugar

/-- Two contexts that differ in their events only. -/
def Context.SameButEvents (c d : Context) : Prop :=
  ∃ events, d = { c with events }

namespace Lower

variable {α β : Type}

/-- A computation that does not depend on the events of its context. -/
def Blind (x : Lower α) : Prop :=
  ∀ c d, c.SameButEvents d →
    EndAlike (fun a b c' d' => a = b ∧ c'.SameButEvents d') Eq (x.exec c) (x.exec d)

/-- `pure` is blind: it leaves the context as it is. -/
theorem blind_pure (a : α) : Blind (pure a) :=
  fun _ _ h => ⟨rfl, h⟩

/-- `throw` is blind: the error does not come from the context. -/
theorem blind_throw (e : Unresolved) : Blind (throw e : Lower α) :=
  fun _ _ _ => rfl

/-- `>>=` keeps `Blind`: the second computation starts from contexts that `SameButEvents` relates. -/
theorem Blind.bind {x : Lower α} {f : α → Lower β} (hx : Blind x) (hf : ∀ a, Blind (f a)) :
    Blind (x >>= f) := by
  intro c d h
  refine (hx c d h).bind ?_
  intro a b c' d' hmid
  obtain ⟨rfl, h'⟩ := hmid
  exact hf a c' d' h'

/-- `get >>= f` is blind if what `f` reads of the context is not its events (`hread`). -/
theorem blind_get_bind {f : Context → Lower α} (hf : ∀ c, Blind (f c))
    (hread : ∀ (c : Context) (events : List Event), f { c with events } = f c) :
    Blind (get >>= f) := by
  intro c d h
  obtain ⟨events, rfl⟩ := h
  -- Both runs go on with the same `f c`, from contexts that still differ in their events
  have hsame := hread c events
  rw [exec_get_bind, exec_get_bind, hsame]
  exact hf c c _ ⟨events, rfl⟩

/-- `modify g` is blind if `g` keeps `SameButEvents`. -/
theorem blind_modify {g : Context → Context}
    (hg : ∀ c d, c.SameButEvents d → (g c).SameButEvents (g d)) : Blind (modify g) :=
  fun c d h => ⟨rfl, hg c d h⟩

/-- `modifyGet g` is blind if `g` returns the same value and keeps `SameButEvents`. -/
theorem blind_modifyGet {g : Context → α × Context}
    (hg : ∀ c d, c.SameButEvents d → (g c).1 = (g d).1 ∧ (g c).2.SameButEvents (g d).2) :
    Blind (modifyGet g) :=
  fun c d h => hg c d h

/-! ## Steps -/

/-- `note` adds the same event on both sides. -/
theorem blind_note (e : Event) : Blind (note e) := by
  refine blind_modify fun c d h => ?_
  obtain ⟨events, rfl⟩ := h
  exact ⟨e :: events, rfl⟩

/-- `noteIf` is blind, whether or not its condition holds. -/
theorem blind_noteIf (condition : Bool) (e : Event) : Blind (noteIf condition e) := by
  cases condition with
  | false => exact blind_pure ()
  | true => exact blind_note e

/-- `Context.intern` looks at the literal table only. -/
theorem blind_intern (l : Literal) : Blind (modifyGet (·.intern l)) := by
  refine blind_modifyGet fun c d h => ?_
  obtain ⟨events, rfl⟩ := h
  exact ⟨rfl, events, rfl⟩

/-- `Context.record` looks at the literal table and the queue, and reports the binding in both runs. -/
theorem blind_record (b : Pending) : Blind (modifyGet (·.record b)) := by
  refine blind_modifyGet fun c d h => ?_
  obtain ⟨events, rfl⟩ := h
  exact ⟨rfl, .queued b.name b.level b.kind :: events, rfl⟩

/-- `Context.takePending` looks at the queue only. -/
theorem blind_takePending : Blind (modifyGet Context.takePending) := by
  refine blind_modifyGet fun c d h => ?_
  obtain ⟨events, rfl⟩ := h
  exact ⟨rfl, events, rfl⟩

/-- `Context.restorePending` looks at the queue only. -/
theorem blind_restorePending (saved : List Pending) : Blind (modify (·.restorePending saved)) := by
  refine blind_modify fun c d h => ?_
  obtain ⟨events, rfl⟩ := h
  exact ⟨events, rfl⟩

/-- `Context.openScope` pushes the entries of the queue, which is the same in both contexts. -/
theorem blind_openScope : Blind (modifyGet Context.openScope) := by
  refine blind_modifyGet fun c d h => ?_
  obtain ⟨events, rfl⟩ := h
  -- `openScope_eq` spells the fold out, so that the two contexts can be compared field by field
  rw [Context.openScope_eq, Context.openScope_eq]
  exact ⟨rfl, _, rfl⟩

/-- `closeBlock` truncates the scope and queues `deferred`, whatever the events are. -/
theorem blind_closeBlock (depth : Nat) (steps : List BlockStep) (deferred : List Pending) :
    Blind (closeBlock depth steps deferred) := by
  refine (blind_note _).bind fun _ => Blind.bind ?_ fun _ => blind_pure _
  refine blind_modify fun c d h => ?_
  obtain ⟨events, rfl⟩ := h
  exact ⟨events, rfl⟩

/-- `literal` is `Context.intern` and then `pure`. -/
theorem blind_literal (l : Literal) : Blind (literal l) :=
  (blind_intern l).bind fun _ => blind_pure _

/-- `queue` is `Context.record` and then `pure`. -/
theorem blind_queue (b : Pending) : Blind (queue b) :=
  (blind_record b).bind fun _ => blind_pure _

/-- `name` decides by the scope, the built-in names and the effect suffix; none of its cases reads an
    event. -/
theorem blind_name (span : Span) (x : String) : Blind (name span x) := by
  refine blind_get_bind (fun c => ?_) fun c events => rfl
  split
  · -- a name in scope
    exact blind_pure _
  · split
    · -- a built-in name, which is reported
      exact (blind_note _).bind fun _ => blind_pure _
    · split
      · -- an effect
        exact (blind_intern _).bind fun _ => blind_pure _
      · -- an unresolved name
        exact blind_throw _

/-! ## All of lowering -/

/-- `node` of a call is blind if its callee and its arguments are, in both ways of lowering a call. -/
theorem call_blind (d : Delivery) (k : NameKind) (pos : Nat) (callee : Node) (args : List Node)
    (hcallee : ∀ d k, Blind (node d k callee)) (hargs : ∀ d, Blind (arguments d args)) :
    Blind (node d k (.call pos callee args)) := by
  rw [node]
  refine blind_get_bind (fun c => ?_) fun c events => rfl
  dsimp only
  split
  · -- structure: the callee and the arguments, one after the other
    exact (hcallee _ _).bind fun _ => (hargs _).bind fun _ => blind_pure _
  · -- an ordinary or a macro call: the queue is set aside around the callee and the arguments
    refine blind_takePending.bind fun saved => (hcallee _ _).bind fun fn => ?_
    refine (blind_noteIf _ _).bind fun _ => (hargs _).bind fun values => ?_
    exact (blind_restorePending saved).bind fun _ => blind_pure _

/-- `block` is blind if its items are: what it reads of the context is the depth of the scope. -/
theorem block_blind_of_items (ns : List Node) (h : Blind (items (itemsOrNil ns))) :
    Blind (block ns) := by
  rw [block_eq]
  refine blind_get_bind (fun c => ?_) fun c events => rfl
  exact h.bind fun r => blind_closeBlock _ r.1 r.2

/-- All of lowering is blind: `node`, `arguments` and `items`, by `Lower.induct`. -/
private theorem blind_all :
    (∀ d k n, Blind (node d k n)) ∧ (∀ d ns, Blind (arguments d ns)) ∧ ∀ ns, Blind (items ns) := by
  refine induct (fun d k n => Blind (node d k n)) (fun d ns => Blind (arguments d ns))
    (fun ns => Blind (items ns)) ?_ ?_ ?_ ?_ ?_ call_blind ?_ ?_ ?_ ?_
  · -- var
    intro d k pos x
    rw [node]
    exact (blind_name _ x).bind fun _ => blind_pure _
  · -- atom
    intro d k pos x
    rw [node]
    exact (blind_literal _).bind fun _ => blind_pure _
  · -- text
    intro d k pos content
    rw [node]
    exact (blind_literal _).bind fun _ => blind_pure _
  · -- binding
    intro d k pos level consume x
    rw [node]
    exact (blind_queue _).bind fun _ => blind_pure _
  · -- block
    intro d k pos ns ih
    rw [node]
    exact block_blind_of_items ns ih
  · -- no arguments
    intro d
    rw [arguments]
    exact blind_pure _
  · -- an argument and the rest
    intro d arg rest harg hrest
    rw [arguments]
    exact harg.bind fun _ => hrest.bind fun _ => blind_pure _
  · -- no items
    rw [items]
    exact blind_pure _
  · -- an item and the rest
    intro n rest hn hrest
    rw [items]
    exact blind_openScope.bind fun _ => hn.bind fun _ => hrest.bind fun _ => blind_pure _

/-- `arguments` does not depend on the events of its context. -/
theorem arguments_blind (d : Delivery) (ns : List Node) : Blind (arguments d ns) :=
  blind_all.2.1 d ns

/-- `block` does not depend on the events of its context. -/
theorem block_blind (ns : List Node) : Blind (block ns) :=
  block_blind_of_items ns (blind_all.2.2 _)

end Lower

end Unsugar
