import Mathlib
import Unsugar.Proofs.Scoping
import Unsugar.Proofs.Weakening

/-!
# A larger prelude

Names that are added around a prelude stand outside of every other name in scope. A program that was
lowered without them found each of its names further in, or as a built-in term or an effect. As long as
none of the added names is built in or an effect, it does so again, also where it uses or binds the
added names itself, and whether or not they are macros. No index reaches out to the added names, so the
program stays the same.

## Key results

- `Insertion.harmless_around`: outermost names do no harm to a run that succeeds
- `lowerAll_prelude_append`: a program keeps its meaning under a larger prelude
-/

namespace Unsugar

/-- Names that are put around all others, outermost first. -/
def Insertion.around (added : List (NameKind × String)) : Insertion :=
  ⟨0, (added.map fun entry => ScopeEntry.named entry.1 entry.2).reverse⟩

/-- `Insertion.around` is `Harmless` to a run that succeeds: a name that means something without the
    added names is found inside of them, or is none of them. -/
theorem Insertion.harmless_around {settings : Settings} {added : List (NameKind × String)}
    (h : ∀ entry ∈ added, Builtin.ofName? entry.2 = none ∧
      (Context.initial settings).isEffect entry.2 = false) (x : String) :
    (around added).Harmless True settings.effectSuffix x := by
  intro c hsuffix
  by_cases hknown : c.Knows x
  · refine .inl ?_
    rcases hknown with hscope | hother
    · -- The whole scope stands inside.
      right
      obtain ⟨e, he, hx⟩ := List.any_eq_true.1 (by rwa [Scope.resolve?, List.findIdx?_isSome] at hscope)
      refine ⟨e, ?_, by simpa using hx⟩
      rwa [Scope.inside, around, Nat.sub_zero, Scope.depth, List.take_length]
    · -- A built-in name or an effect is none of the added names.
      left
      intro e he hname
      simp only [around, List.mem_reverse, List.mem_map] at he
      obtain ⟨entry, hentry, rfl⟩ := he
      have hx : entry.2 = x := by simpa [ScopeEntry.named] using hname
      obtain ⟨hbuiltin, heffect⟩ := h entry hentry
      have hsame : c.isEffect x = (Context.initial settings).isEffect x := by
        simp only [Context.isEffect, hsuffix]
        rfl
      rw [hx] at hbuiltin heffect
      simp [hbuiltin, hsame, heffect] at hother
  · exact .inr ⟨trivial, hknown⟩

/-- `start` under a larger prelude has the added names around the scope. -/
theorem Node.start_insert (settings : Settings) (added : List (NameKind × String)) (file : Nat)
    (items : List Node) :
    start { settings with prelude := added ++ settings.prelude } file items =
      (start settings file items).insert (.around added) := by
  let larger : Settings := { settings with prelude := added ++ settings.prelude }
  have hscope : (Context.initial larger).scope =
      (Context.initial settings).scope.insert (.around added) := by
    rw [Context.scope_initial, Context.scope_initial, Scope.insert, Scope.inside, Insertion.around,
      Nat.sub_zero, Scope.depth, List.take_length, List.drop_length]
    simp [larger]
  show Context.note { Context.initial settings with scope := (Context.initial larger).scope } _ = _
  rw [hscope]
  rfl

/-- `lowerAll` under a larger prelude is conservative. If a program is lowered, it is lowered to the
    same term over the same literals when further names are put around the prelude, whatever their
    kinds and whether or not the program uses or binds them, unless one of them is built in
    (`Builtin.ofName?`) or an effect (`isEffect`). -/
theorem lowerAll_prelude_append (settings : Settings) (file : Nat) (items : List Node)
    (p : Program) (h : (Node.lowerAll settings file items).1 = .ok p)
    (added : List (NameKind × String))
    (hadded : ∀ entry ∈ added, Builtin.ofName? entry.2 = none ∧
      (Context.initial settings).isEffect entry.2 = false) :
    (Node.lowerAll { settings with prelude := added ++ settings.prelude } file items).1 = .ok p := by
  obtain ⟨c, hrun, hliterals⟩ := Node.lowerAll_eq_ok_iff.1 h
  let start := Node.start settings file items
  have hharmless : ∀ x ∈ Node.namesAll items,
      (Insertion.around added).Harmless True settings.effectSuffix x :=
    fun x _ => Insertion.harmless_around hadded x
  have hweakened := Lower.block_weakened hharmless (Nat.zero_le start.scope.depth) rfl
    (fun _ => ⟨p.term, by rw [hrun]⟩)
  -- The term reaches no further than the scope it was lowered in, so nothing in it is shifted.
  have hscoped : p.term.Scoped start.scope.depth := (Lower.block_scoped items start).of_ok hrun
  have hshift : p.term.shift (Insertion.around added).added.length
      (start.scope.inside (.around added)) = p.term := Term.shift_of_scoped hscoped
  rw [hrun] at hweakened
  refine Node.lowerAll_eq_ok_iff.2 ⟨c.insert (.around added), ?_, hliterals⟩
  rw [Node.start_insert, hweakened, Except.map, hshift]

/-- Two names of the prelude are added once more with the other kind, and one that the program binds. -/
theorem lowerAll_prelude_append_shadowed :
    let settings : Settings := ⟨[(.macroName, "let"), (.ordinary, "f")], "!"⟩
    let added := [(NameKind.ordinary, "let"), (.macroName, "f"), (.macroName, "x")]
    let items : List Node := [.callNamed 0 "let" [.bind 0 "x", .callNamed 0 "f" [.bind 0 "y"]],
      .callNamed 0 "x" [.var 0 "y", .var 0 "print!"]]
    let program : Program :=
      ⟨.abs (.app (.app (.app (.var 2) (.app (.lit 2) (.lit 4)))
          (.app (.app (.lit 3) (.app (.lit 1) (.var 1))) (.app (.app (.lit 2) (.lit 5)) (.lit 0))))
          (.abs (.abs (.app (.app (.var 1) (.var 0)) (.effect 6))))),
        [.atom "Nil", .atom "Value", .atom "Binding", .atom "Call", .atom "x", .atom "y",
          .atom "print!"]⟩
    (Node.lowerAll settings 0 items).1 = .ok program ∧
      (Node.lowerAll { settings with prelude := added ++ settings.prelude } 0 items).1 =
        .ok program := by
  intro settings added items program
  have hlower : (Node.lowerAll settings 0 items).1 = .ok program := by cbv
  have hadded : ∀ entry ∈ added, Builtin.ofName? entry.2 = none ∧
      (Context.initial settings).isEffect entry.2 = false := by
    decide
  exact ⟨hlower, lowerAll_prelude_append settings 0 items program hlower added hadded⟩

end Unsugar
