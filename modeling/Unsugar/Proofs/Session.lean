import Mathlib
import Unsugar.Proofs.Literals

/-!
# Sessions

A lowering context can be kept and asked again and again: for a value, for an argument of a macro, for
a block. A request that succeeds gives the scope back as it was. One that fails stops in the middle of
unfinished blocks, but it has only added to the scope, so cutting the scope back to its former depth
undoes that. Literals are never taken back: they keep their places through a whole session, and a term
that an earlier request gave means the same literals at its end.

## Key results

- `Request.framed`: what one request keeps of its context
- `Session.literals_prefix`: a whole session only adds to the literals
- `request_after_spec`: single requests and whole sessions
-/

namespace Unsugar

/-- What can be asked of a lowering context. -/
inductive Request where
  /-- A node as an ordinary value. -/
  | value (n : Node)
  /-- A node as an argument of a macro. -/
  | wrapped (n : Node)
  /-- A block of items. -/
  | block (items : List Node)
deriving Repr

namespace Request

/-- The computation that answers a request. -/
def lower : Request → Lower Term
  | .value n => Lower.value n
  | .wrapped n => Lower.wrapped n
  | .block items => Lower.block items

/-- What a request is answered in a context. -/
def answer (r : Request) (c : Context) : Except Unresolved Term := (r.lower.exec c).1

/-- The context that a request leaves behind, also when it fails. -/
def after (r : Request) (c : Context) : Context := (r.lower.exec c).2

/-- `lower` of a request gives its scope back, or has at least not taken from it when it fails. -/
theorem framed (r : Request) (c : Context) : Lower.Framed c (r.lower.exec c) := by
  cases r with
  | value n => exact Lower.node_framed .plain .ordinary n c
  | wrapped n => exact Lower.node_framed .tagged .ordinary n c
  | block items => exact Lower.block_framed items c

/-- `lower` of a request: the literals of the term that it gives have places in the table. -/
theorem exact (r : Request) {c : Context} (hc : c.HasReserved) :
    Lower.Ends (fun t c' => Lower.Exact c c' t.leaves) (fun _ _ => True) (r.lower.exec c) := by
  cases r with
  | value n => exact Lower.node_exact .plain .ordinary n hc
  | wrapped n => exact Lower.node_exact .tagged .ordinary n hc
  | block items => exact Lower.block_exact items hc

end Request

/-- The contexts that a session leads to. Each request starts in the context that the one before it
    ended in, also if it failed there, and between requests the scope may be cut back. -/
inductive Session (c : Context) : Context → Prop where
  | start : Session c c
  | request {c' : Context} (h : Session c c') (r : Request) : Session c (r.after c')
  | truncate {c' : Context} (h : Session c c') (depth : Nat) : Session c (c'.truncate depth)

/-- The program of a term that was lowered in a context. -/
def Context.program (c : Context) (t : Term) : Program := ⟨t, c.literals.toList⟩

/-- A `Session` only adds to the literals. By induction on the session. -/
theorem Session.literals_prefix {c c' : Context} (h : Session c c') :
    c.literals.toList <+: c'.literals.toList := by
  induction h with
  | start => exact List.prefix_rfl
  | request _ r ih => exact ih.trans (r.framed _).grows.literals
  | truncate _ depth ih => exact ih

theorem Session.hasReserved {c c' : Context} (h : Session c c') (hc : c.HasReserved) :
    c'.HasReserved :=
  List.IsPrefix.trans hc h.literals_prefix

/-- `indexOf?` finds a literal at the same place in a table that is only added to. -/
theorem LiteralTable.indexOf?_of_prefix {t t' : LiteralTable} (h : t.toList <+: t'.toList)
    {l : Literal} {i : Nat} (hl : t.indexOf? l = some i) : t'.indexOf? l = some i := by
  obtain ⟨added, hadded⟩ := h
  unfold indexOf? at hl ⊢
  rw [← hadded, List.findIdx?_append, hl]
  rfl

/-- `Exact` terms: their literals and effects have places in the table where they were lowered. -/
theorem Lower.Exact.exists_get? {c c' : Context} {t : Term} (h : Exact c c' t.leaves) {i b : Nat}
    (hi : Term.Occurs (.lit i) b t ∨ Term.Occurs (.effect i) b t) :
    ∃ l, c'.literals.get? i = some l := by
  rcases hi with hi | hi
  · have hlt : i < c'.literals.size := h.sound _ (Term.mem_leaves_iff.2 ⟨rfl, b, hi⟩)
    exact ⟨_, List.getElem?_eq_getElem hlt⟩
  · obtain ⟨x, hx, -⟩ := h.sound _ (Term.mem_leaves_iff.2 ⟨rfl, b, hi⟩)
    exact ⟨_, hx⟩

/-- What `Request.after` keeps of a context, whatever it is. After a success the scope is the one
    before. After a failure the one before is its outer part, and `truncate` to the former depth
    restores it. In both cases the effect suffix stays and the literal table is only added to, without
    a literal twice if there was none. So through a whole `Session`, failures included, literals keep
    their places, and a term goes on to mean the same literals up to the program that is made of it in
    the end. -/
theorem request_after_spec :
    (∀ (c : Context) (r : Request) (t : Term), r.answer c = .ok t → (r.after c).scope = c.scope) ∧
    (∀ (c : Context) (r : Request) (e : Unresolved), r.answer c = .error e →
      c.scope.entries <:+ (r.after c).scope.entries ∧
        ((r.after c).truncate c.scope.depth).scope = c.scope) ∧
    (∀ (c : Context) (r : Request),
      (r.after c).effectSuffix = c.effectSuffix ∧
        c.literals.toList <+: (r.after c).literals.toList ∧
        (c.literals.toList.Nodup → (r.after c).literals.toList.Nodup)) ∧
    (∀ c c' : Context, Session c c' → ∀ (l : Literal) (i : Nat),
      (c.literals.get? i = some l → c'.literals.get? i = some l) ∧
        (c.literals.indexOf? l = some i → c'.literals.indexOf? l = some i)) ∧
    ∀ (c c₁ c₂ : Context) (r : Request) (t : Term), c.HasReserved → Session c c₁ →
      r.answer c₁ = .ok t → Session (r.after c₁) c₂ →
        ∀ i b, Term.Occurs (.lit i) b t ∨ Term.Occurs (.effect i) b t →
          ∃ l, (r.after c₁).literals.get? i = some l ∧ (c₂.program t).literals[i]? = some l := by
  refine ⟨?_, ?_, ?_, ?_, ?_⟩
  · -- the scope after a success
    intro c r t ht
    exact ((r.framed c).of_fst_eq_ok ht).2
  · -- the scope after a failure
    intro c r e he
    have hgrows : c.Grows (r.after c) := (r.framed c).of_fst_eq_error he
    exact ⟨hgrows.scope, Lower.truncate_of_suffix hgrows.scope⟩
  · -- the suffix and the literals
    intro c r
    have hgrows := (r.framed c).grows
    exact ⟨hgrows.effectSuffix, hgrows.literals, hgrows.nodup⟩
  · -- literals through a session
    intro c c' h l i
    have hliterals := h.literals_prefix
    exact ⟨LiteralTable.get?_of_prefix hliterals, LiteralTable.indexOf?_of_prefix hliterals⟩
  · -- a term through a session
    intro c c₁ c₂ r t hc hbefore ht hafter i b hi
    -- The places exist where the request ended, and the rest of the session only adds to them.
    have hexact := (r.exact (hbefore.hasReserved hc)).of_fst_eq_ok ht
    obtain ⟨l, hl⟩ := hexact.exists_get? hi
    exact ⟨l, hl, LiteralTable.get?_of_prefix hafter.literals_prefix hl⟩

/-- A failure before and one after: the first leaves a scope open in which the term is lowered, the
    second leaves literals behind that the term does not know. -/
theorem request_after_spec_between_failures :
    let c := Context.initial ⟨[(.ordinary, "f")], "!"⟩
    let failed := Request.block [.callNamed 0 "f" [.atom 0 "a", .var 0 "g"]]
    let asked := Request.wrapped (.callNamed 0 "print!" [.atom 0 "b", .bind 0 "x"])
    let last := Request.value (.call 0 (.text 0 "t") [.var 0 "y"])
    let t := Term.app (.app (.lit 3) (.app (.lit 1) (.effect 5)))
      (.app (.app (.lit 1) (.lit 6)) (.app (.app (.lit 2) (.lit 7)) (.lit 0)))
    failed.answer c = .error ⟨⟨0, 1⟩, "g"⟩ ∧
      ((failed.after c).truncate c.scope.depth).scope = c.scope ∧
      asked.answer (failed.after c) = .ok t ∧
      ∃ l, (asked.after (failed.after c)).literals.get? 6 = some l ∧
        ((last.after ((asked.after (failed.after c)).truncate 1)).program t).literals[6]? =
          some l := by
  intro c failed asked last t
  obtain ⟨-, hfail, -, -, hmeans⟩ := request_after_spec
  have herror : failed.answer c = .error ⟨⟨0, 1⟩, "g"⟩ := by cbv
  have hterm : asked.answer (failed.after c) = .ok t := by cbv
  have hleaf : Term.lit 6 ∈ t.leaves := by decide
  obtain ⟨-, b, hb⟩ := Term.mem_leaves_iff.1 hleaf
  exact ⟨herror, (hfail c failed _ herror).2, hterm,
    hmeans c _ _ asked t (List.prefix_refl _) (.request .start failed) hterm
      (.request (.truncate .start 1) last) 6 b (.inl hb)⟩

end Unsugar
