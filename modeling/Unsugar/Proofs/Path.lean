import Unsugar.Proofs.Lookup

/-!
# Places in a tree

A place is given by the path to it, a list of child numbers from the top down. A callee is the first
child of its call and comes before the arguments, so the lexicographic order of paths is the order in
which a tree is read, and in which it is lowered.

The nodes of a forest are numbered like the children of a node. The empty path leads nowhere in it.

## Key results

- `Node.put_self`, `Node.putAll_self`: putting a node where it already stands
- `Node.outlines_putAll`: a name that is not in scope shows a call no more than an atom does
-/

namespace Unsugar

namespace Node

/-- The nodes right below a node, in the order in which they are lowered. -/
def children : Node → List Node
  | .block _ items => items
  | .call _ callee args => callee :: args
  | _ => []

/-- A node with others right below it, as many as it has. -/
def withChildren : Node → List Node → Node
  | .block pos _, items => .block pos items
  | .call pos _ _, callee :: args => .call pos callee args
  | n, _ => n

/-- The node at a place. -/
def at? : Node → List Nat → Option Node
  | n, [] => some n
  | n, i :: path => n.children[i]?.bind fun child => child.at? path

/-- Puts a node in the place of another one. -/
def put : Node → List Nat → Node → Node
  | _, [], m => m
  | n, i :: path, m => n.withChildren (n.children.modify i fun child => child.put path m)

/-- The node at a place of a forest. -/
def atAll? (ns : List Node) : List Nat → Option Node
  | [] => none
  | i :: path => ns[i]?.bind fun n => n.at? path

/-- Puts a node in the place of another one in a forest. -/
def putAll (ns : List Node) : List Nat → Node → List Node
  | [], _ => ns
  | i :: path, m => ns.modify i fun n => n.put path m

/-! ## Children -/

@[simp] theorem withChildren_children (n : Node) : n.withChildren n.children = n := by
  cases n <;> rfl

/-- `children` of `withChildren`, for as many as the node has. -/
theorem children_withChildren {n : Node} {ns : List Node} (h : ns.length = n.children.length) :
    (n.withChildren ns).children = ns := by
  cases n with
  | block pos items => rfl
  | call pos callee args =>
    cases ns with
    | nil => simp [children] at h
    | cons n rest => rfl
  | _ =>
    -- A node without children is given none.
    exact (List.length_eq_zero_iff.1 h).symm

/-- `withChildren` twice: the second list counts. -/
theorem withChildren_withChildren {n : Node} {ns ms : List Node}
    (h : ms.length = n.children.length) :
    (n.withChildren ns).withChildren ms = n.withChildren ms := by
  cases n with
  | call pos callee args =>
    cases ms with
    | nil => simp [children] at h
    | cons m rest => cases ns <;> rfl
  | _ => rfl

/-! ## Forests -/

/-- `putAll` keeps the number of nodes. -/
@[simp] theorem length_putAll (ns : List Node) (path : List Nat) (m : Node) :
    (putAll ns path m).length = ns.length := by
  cases path with
  | nil => rfl
  | cons i path => exact List.length_modify _ _ _

/-- `atAll?` finds nothing at the empty path. -/
theorem exists_eq_cons {ns : List Node} {v : Node} {path : List Nat}
    (h : atAll? ns path = some v) : ∃ i q, path = i :: q := by
  cases path with
  | nil => simp [atAll?] at h
  | cons i q => exact ⟨i, q, rfl⟩

/-- `atAll?` in a forest of one node: all paths lead to that node first. -/
theorem exists_eq_zero_cons {n v : Node} {path : List Nat} (h : atAll? [n] path = some v) :
    ∃ q, path = 0 :: q := by
  obtain ⟨i, q, rfl⟩ := exists_eq_cons h
  cases i with
  | zero => exact ⟨q, rfl⟩
  | succ i => simp [atAll?] at h

/-- The same place when a node is put in front of a forest. -/
def pathAfter : List Nat → List Nat
  | [] => []
  | i :: path => (i + 1) :: path

/-- `atAll?` behind a node that is put in front. -/
@[simp] theorem atAll?_pathAfter (n : Node) (rest : List Node) (path : List Nat) :
    atAll? (n :: rest) (pathAfter path) = atAll? rest path := by
  cases path <;> rfl

/-- `putAll` behind a node that is put in front. -/
@[simp] theorem putAll_pathAfter (n : Node) (rest : List Node) (path : List Nat) (m : Node) :
    putAll (n :: rest) (pathAfter path) m = n :: putAll rest path m := by
  cases path <;> rfl

/-- `pathAfter` keeps the order of paths. -/
theorem pathAfter_lt_pathAfter {p q : List Nat} (h : p < q) : pathAfter p < pathAfter q := by
  cases p with
  | nil =>
    cases q with
    | nil => exact h
    | cons j q => exact List.nil_lt_cons _ _
  | cons i p =>
    cases q with
    | nil => simp at h
    | cons j q => simpa [pathAfter, List.cons_lt_cons_iff] using h

/-- `pathAfter` is later than anything in the first node. -/
theorem zero_cons_lt_pathAfter (p : List Nat) (i : Nat) (q : List Nat) :
    0 :: p < pathAfter (i :: q) := by
  simp [pathAfter, List.cons_lt_cons_iff]

/-- `List.modify` does not show in `map g` if it does not show in `g` of the node that is changed. -/
theorem map_modify_eq {α : Type} {g : Node → α} {f : Node → Node} {i : Nat} {ns : List Node}
    (h : ∀ n, ns[i]? = some n → g (f n) = g n) : (ns.modify i f).map g = ns.map g := by
  refine List.ext_getElem? fun j => ?_
  rw [List.getElem?_map, List.getElem?_map, List.getElem?_modify]
  by_cases hij : i = j
  · -- the node that is changed
    subst hij
    cases hn : ns[i]? with
    | none => rfl
    | some n => simp [h n hn]
  · -- any other node
    simp [hij]

/-! ## Putting a node where it stands -/

/-- `put` of the node that already stands at the place. By induction on the path. -/
theorem put_self {n v : Node} {path : List Nat} (h : n.at? path = some v) : n.put path v = n := by
  induction path generalizing n with
  | nil => exact (Option.some.inj h).symm
  | cons i path ih =>
    -- On the way down, each list of children is changed at one place, by what was there.
    have hchildren : (n.children.modify i fun child => child.put path v).map id =
        n.children.map id := by
      refine map_modify_eq fun child hchild => ?_
      rw [at?, hchild] at h
      exact ih h
    rw [List.map_id, List.map_id] at hchildren
    rw [put, hchildren, withChildren_children]

/-- `putAll` of the node that already stands at the place. -/
theorem putAll_self {ns : List Node} {v : Node} {path : List Nat} (h : atAll? ns path = some v) :
    putAll ns path v = ns := by
  cases path with
  | nil => rfl
  | cons i path =>
    have hns : (ns.modify i fun n => n.put path v).map id = ns.map id := by
      refine map_modify_eq fun n hn => ?_
      rw [atAll?, hn] at h
      exact put_self h
    rwa [List.map_id, List.map_id] at hns

/-! ## Names -/

/-- `names` of a node are among `namesAll` of a list that it is in. -/
theorem names_subset_namesAll {n : Node} {ns : List Node} (h : n ∈ ns) : n.names ⊆ namesAll ns := by
  induction ns with
  | nil => simp at h
  | cons m rest ih =>
    rw [namesAll]
    rcases List.mem_cons.1 h with rfl | h
    · exact List.subset_append_left _ _
    · exact List.subset_append_of_subset_right _ (ih h)

/-- `namesAll` of the `children` are among the `names` of the node. -/
theorem namesAll_children_subset (n : Node) : namesAll n.children ⊆ n.names := by
  cases n <;> simp [children, namesAll, names]

/-- `at?` finds only names that are used in the node. By induction on the path. -/
theorem mem_names_of_at? {n : Node} {path : List Nat} {pos : Nat} {x : String}
    (h : n.at? path = some (.var pos x)) : x ∈ n.names := by
  induction path generalizing n with
  | nil =>
    obtain rfl := Option.some.inj h
    simp [names]
  | cons i path ih =>
    obtain ⟨child, hchild, hat⟩ := Option.bind_eq_some_iff.1 h
    have hmem : child ∈ n.children := List.mem_of_getElem? hchild
    exact namesAll_children_subset n (names_subset_namesAll hmem (ih hat))

/-- `atAll?` finds only names that are used in the forest. -/
theorem mem_namesAll_of_atAll? {ns : List Node} {path : List Nat} {pos : Nat} {x : String}
    (h : atAll? ns path = some (.var pos x)) : x ∈ namesAll ns := by
  cases path with
  | nil => simp [atAll?] at h
  | cons i path =>
    obtain ⟨n, hn, hat⟩ := Option.bind_eq_some_iff.1 h
    exact names_subset_namesAll (List.mem_of_getElem? hn) (mem_names_of_at? hat)

end Node

/-! ## What a call shows -/

namespace Scope

/-- What is asked of a node before the call that it stands in is lowered. -/
structure Outline where
  isMacro : Bool
  hasBindings : Bool
  isBlockBinding : Bool

/-- The outline of a node in a scope. -/
def outline (s : Scope) (n : Node) : Outline :=
  ⟨s.isMacro n, s.hasBindings n, n.isBlockBinding⟩

/-- The outline of a node that shows nothing. -/
def Outline.blank : Outline := ⟨false, false, false⟩

variable {s : Scope}

theorem outline_var {x : String} (h : s.resolve? x = none) (pos : Nat) :
    s.outline (.var pos x) = .blank := by
  -- A name without an index has no kind either.
  have hclassify : s.classify? x = none := by
    unfold resolve? at h
    rw [List.findIdx?_eq_none_iff] at h
    simp only [classify?, Option.map_eq_none_iff, List.find?_eq_none]
    exact fun e he => by simp [h e he]
  simp [outline, Outline.blank, isMacro, hasBindings, Node.isBlockBinding, hclassify]

theorem outline_atom (pos : Nat) (a : String) : s.outline (.atom pos a) = .blank := by
  simp [outline, Outline.blank, isMacro, hasBindings, Node.isBlockBinding]

/-- `anyHasBindings` by outlines. -/
theorem anyHasBindings_eq (ns : List Node) :
    s.anyHasBindings ns = (ns.map s.outline).any Outline.hasBindings := by
  induction ns with
  | nil => simp [anyHasBindings]
  | cons n rest ih => simp [anyHasBindings, ih, outline]

/-- `definitionKind` depends on the outlines only. -/
theorem definitionKind_congr {ns ns' : List Node} (h : ns'.map s.outline = ns.map s.outline) :
    Node.definitionKind ns' = Node.definitionKind ns := by
  have hany (ns : List Node) :
      ns.any Node.isBlockBinding = (ns.map s.outline).any Outline.isBlockBinding := by
    rw [List.any_map]
    rfl
  rw [Node.definitionKind, Node.definitionKind, hany, hany, h]

/-- `hasBindings` of a call depends on the outlines of the nodes right below it only. -/
theorem hasBindings_call_congr {pos : Nat} {callee callee' : Node} {args args' : List Node}
    (h : (callee' :: args').map s.outline = (callee :: args).map s.outline) :
    s.hasBindings (.call pos callee' args') = s.hasBindings (.call pos callee args) := by
  obtain ⟨hcallee, hargs⟩ := List.cons.inj h
  have hmarked : s.isMacro callee' = s.isMacro callee := congrArg Outline.isMacro hcallee
  have hbindings : s.hasBindings callee' = s.hasBindings callee :=
    congrArg Outline.hasBindings hcallee
  rw [hasBindings, hasBindings, hmarked, hbindings, anyHasBindings_eq, anyHasBindings_eq, hargs]

/-- `outline` of `withChildren` depends on the outlines of the children only. -/
theorem outline_withChildren {n : Node} {ns : List Node}
    (h : ns.map s.outline = n.children.map s.outline) :
    s.outline (n.withChildren ns) = s.outline n := by
  cases n with
  | block pos items => simp [Node.withChildren, outline, isMacro, hasBindings, Node.isBlockBinding]
  | call pos callee args =>
    cases ns with
    | nil => simp [Node.children] at h
    | cons callee' args' =>
      rw [Node.withChildren, outline, hasBindings_call_congr h]
      rfl
  | _ => rfl

end Scope

namespace Node

variable {s : Scope} {v m : Node}

/-- `outline` of `put`: a node with the same outline in the place of another one. By induction on the
    path. -/
theorem outline_put {n : Node} {path : List Nat} (h : n.at? path = some v)
    (hm : s.outline m = s.outline v) : s.outline (n.put path m) = s.outline n := by
  induction path generalizing n with
  | nil =>
    obtain rfl := Option.some.inj h
    exact hm
  | cons i path ih =>
    refine Scope.outline_withChildren (map_modify_eq fun child hchild => ?_)
    rw [at?, hchild] at h
    exact ih h

/-- `outline` over `putAll`: a node with the same outline in the place of another one changes no
    outline. -/
theorem outlines_putAll {ns : List Node} {path : List Nat} (h : atAll? ns path = some v)
    (hm : s.outline m = s.outline v) : (putAll ns path m).map s.outline = ns.map s.outline := by
  cases path with
  | nil => rfl
  | cons i path =>
    refine map_modify_eq fun n hn => ?_
    rw [atAll?, hn] at h
    exact outline_put h hm

end Node

end Unsugar
