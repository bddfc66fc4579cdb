import Unsugar.Proofs.Run

/-!
# What lowering keeps of its context

Lowering a node, arguments or a block gives back the scope it was started in; the items of a block
leave the scopes they opened behind, inside the one they were started in. A run that fails ends with
the scopes of unfinished blocks still open. In every case the literal table only grows and the effect
suffix stays.

## Key results

- `Lower.node_framed`, `Lower.arguments_framed`, `Lower.block_framed`: the scope is given back
- `Lower.items_grown`: items only add to the scope
-/

namespace Unsugar.Lower

variable {α β : Type}

/-- A run from `c` that gives its scope back, and that leaves at least `c` behind when it fails. -/
def Framed (c : Context) (r : Except Unresolved α × Context) : Prop :=
  Ends (fun _ c' => c.Grows c' ∧ c'.scope = c.scope) (fun _ c' => c.Grows c') r

/-- A run from `c` that leaves at least `c` behind. -/
def Grown (c : Context) (r : Except Unresolved α × Context) : Prop :=
  Ends (fun _ c' => c.Grows c') (fun _ c' => c.Grows c') r

/-- `Framed` implies `Grown`: giving the scope back is one way of leaving it behind. -/
theorem Framed.grown {c : Context} {r : Except Unresolved α × Context} (h : Framed c r) :
    Grown c r :=
  h.imp (fun _ _ h => h.1) fun _ _ h => h

/-- The context at the end of a `Framed` run has grown, whether or not the run succeeds. -/
theorem Framed.grows {c : Context} {r : Except Unresolved α × Context} (h : Framed c r) :
    c.Grows r.2 := by
  match r, h with
  | (.ok _, _), h => exact h.1
  | (.error _, _), h => exact h

theorem framed_pure (a : α) (c : Context) : Framed c ((pure a : Lower α).exec c) :=
  ⟨.refl c, rfl⟩

/-- `Framed` passes over an operation before the run, from `c` to `c₁`, that keeps the scope. -/
theorem Framed.after {c c₁ : Context} {r : Except Unresolved α × Context} (h : Framed c₁ r)
    (hg : c.Grows c₁) (hs : c₁.scope = c.scope) : Framed c r :=
  h.imp (fun _ _ h => ⟨hg.trans h.1, h.2.trans hs⟩) fun _ _ h => hg.trans h

/-- `Grown` passes over an operation before the run, from `c` to `c₁`, that only adds to the context.
    -/
theorem Grown.after {c c₁ : Context} {r : Except Unresolved α × Context} (h : Grown c₁ r)
    (hg : c.Grows c₁) : Grown c r :=
  h.imp (fun _ _ h => hg.trans h) fun _ _ h => hg.trans h

/-- `>>=` keeps `Framed`: by `Framed.after` for what the first computation did. -/
theorem Framed.bind {c : Context} {x : Lower α} {f : α → Lower β} (hx : Framed c (x.exec c))
    (hf : ∀ a c₁, Framed c₁ ((f a).exec c₁)) : Framed c ((x >>= f).exec c) :=
  Ends.bind hx fun a c₁ h => (hf a c₁).after h.1 h.2

theorem Grown.bind {c : Context} {x : Lower α} {f : α → Lower β} (hx : Grown c (x.exec c))
    (hf : ∀ a c₁, Grown c₁ ((f a).exec c₁)) : Grown c ((x >>= f).exec c) :=
  Ends.bind hx fun a c₁ h => (hf a c₁).after h

/-! ## Leaves -/

/-- `literal` adds to the literal table only. -/
theorem literal_framed (l : Literal) (c : Context) : Framed c ((literal l).exec c) :=
  ⟨c.grows_intern l, rfl⟩

/-- `queue` adds to the literal table and to the queue. -/
theorem queue_framed (b : Pending) (c : Context) : Framed c ((queue b).exec c) :=
  ⟨c.grows_record b, rfl⟩

/-- `name` gives the scope back in each of its cases, and when it fails leaves the context as it was.
    -/
theorem name_framed (span : Span) (x : String) (c : Context) : Framed c ((name span x).exec c) := by
  rw [name, exec_get_bind]
  split
  · -- a name in scope
    exact framed_pure _ c
  · split
    · -- a built-in name, which is reported
      exact (framed_pure _ (c.note _)).after (.of_eq rfl rfl rfl) rfl
    · split
      · -- an effect
        exact ⟨c.grows_intern _, rfl⟩
      · -- an unresolved name: the context is as it was
        exact Context.Grows.refl c

/-! ## Calls and blocks -/

/-- `node` of a call gives the scope back if its callee and its arguments do, in both ways of lowering
    a call. -/
theorem call_framed (d : Delivery) (k : NameKind) (pos : Nat) (callee : Node) (args : List Node)
    (hcallee : ∀ d k c, Framed c ((node d k callee).exec c))
    (hargs : ∀ d c, Framed c ((arguments d args).exec c)) (c : Context) :
    Framed c ((node d k (.call pos callee args)).exec c) := by
  rcases structure_or_ordinary d c.scope (.call pos callee args) with ⟨rfl, h⟩ | h
  · -- structure: the callee and the arguments, one after the other
    rw [exec_call_structure h]
    exact (hcallee _ _ c).bind fun _ c₁ => (hargs _ c₁).bind fun _ => framed_pure _
  · -- ordinary: setting the queue aside, reporting a macro call and restoring the queue keep the scope
    rw [exec_call_ordinary h]
    have hempty : c.Grows { c with pending := [] } := .of_eq rfl rfl rfl
    refine Framed.after ((hcallee _ _ _).bind fun fn c₁ => ?_) hempty rfl
    rw [exec_noteIf_bind]
    have hnoted (es : List Event) : c₁.Grows { c₁ with events := es } := .of_eq rfl rfl rfl
    refine Framed.after ((hargs _ _).bind fun values c₂ => ?_) (hnoted _) rfl
    exact ⟨.of_eq rfl rfl rfl, rfl⟩

/-- `Scope.truncate` to the former depth undoes additions: `s'` was got from `s` by entries in front.
    -/
theorem truncate_of_suffix {s s' : Scope} (h : s.entries <:+ s'.entries) :
    s'.truncate s.depth = s := by
  obtain ⟨inner, hinner⟩ := h
  have hs' : s' = ⟨inner ++ s.entries⟩ := by rw [hinner]
  rw [hs', Scope.truncate_append]

/-- `closed` gives back the scope that the block was started in, whatever its items opened. -/
theorem closed_framed {c c₁ : Context} (h : c.Grows c₁) (steps : List BlockStep)
    (deferred : List Pending) :
    c.Grows (closed c₁ c.scope.depth steps deferred) ∧
      (closed c₁ c.scope.depth steps deferred).scope = c.scope := by
  have hscope : (closed c₁ c.scope.depth steps deferred).scope = c.scope :=
    truncate_of_suffix h.scope
  refine ⟨⟨?_, h.literals, h.nodup, h.effectSuffix⟩, hscope⟩
  simp only [hscope, List.suffix_rfl]

/-- `block` gives the scope back if its items only add to it: `closed` truncates what they opened. -/
theorem block_framed_of_items (ns : List Node)
    (h : ∀ c, Grown c ((items (itemsOrNil ns)).exec c)) (c : Context) :
    Framed c ((block ns).exec c) := by
  rw [block_eq, exec_get_bind]
  refine Ends.bind (h c) ?_
  intro r c₁ hg
  exact closed_framed hg r.1 r.2

/-- `items` of one more item only add to the scope: `openScope` pushes entries, the item gives back
    what it was started in, and the rest adds its own. -/
theorem items_cons_grown (n : Node) (rest : List Node)
    (hn : ∀ c, Framed c ((node .plain .ordinary n).exec c))
    (hrest : ∀ c, Grown c ((items rest).exec c)) (c : Context) :
    Grown c ((items (n :: rest)).exec c) := by
  rw [items, exec_modifyGet_bind]
  refine Grown.after ?_ c.grows_openScope
  refine (hn _).grown.bind fun t c₁ => (hrest c₁).bind ?_
  intro r c₂
  exact Context.Grows.refl c₂

/-! ## All of lowering -/

/-- `node` and `arguments` are `Framed` and `items` are `Grown`, by `Lower.induct`. -/
private theorem framed_all :
    (∀ d k n c, Framed c ((node d k n).exec c)) ∧
      (∀ d ns c, Framed c ((arguments d ns).exec c)) ∧
      ∀ ns c, Grown c ((items ns).exec c) := by
  refine induct (fun d k n => ∀ c, Framed c ((node d k n).exec c))
    (fun d ns => ∀ c, Framed c ((arguments d ns).exec c))
    (fun ns => ∀ c, Grown c ((items ns).exec c)) ?_ ?_ ?_ ?_ ?_ ?_ ?_ ?_ ?_ ?_
  · -- var
    intro d k pos x c
    rw [node]
    exact (name_framed _ x c).bind fun _ => framed_pure _
  · -- atom
    intro d k pos x c
    rw [node]
    exact (literal_framed _ c).bind fun _ => framed_pure _
  · -- text
    intro d k pos content c
    rw [node]
    exact (literal_framed _ c).bind fun _ => framed_pure _
  · -- binding
    intro d k pos level consume x c
    rw [node]
    exact (queue_framed _ c).bind fun _ => framed_pure _
  · -- block
    intro d k pos ns ih c
    rw [node]
    exact block_framed_of_items ns ih c
  · -- call
    exact call_framed
  · -- no arguments
    intro d c
    rw [arguments]
    exact framed_pure _ c
  · -- an argument and the rest
    intro d arg rest harg hrest c
    rw [arguments]
    exact (harg c).bind fun _ c₁ => (hrest c₁).bind fun _ => framed_pure _
  · -- no items
    intro c
    rw [items]
    exact (framed_pure _ c).grown
  · -- an item and the rest
    exact items_cons_grown

/-- `node` gives its scope back. -/
theorem node_framed (d : Delivery) (k : NameKind) (n : Node) (c : Context) :
    Framed c ((node d k n).exec c) :=
  framed_all.1 d k n c

/-- `arguments` give their scope back. -/
theorem arguments_framed (d : Delivery) (ns : List Node) (c : Context) :
    Framed c ((arguments d ns).exec c) :=
  framed_all.2.1 d ns c

/-- `items` only add to the scope. -/
theorem items_grown (ns : List Node) (c : Context) : Grown c ((items ns).exec c) :=
  framed_all.2.2 ns c

/-- `block` gives its scope back. -/
theorem block_framed (ns : List Node) (c : Context) : Framed c ((block ns).exec c) :=
  block_framed_of_items ns (items_grown _) c

end Unsugar.Lower
