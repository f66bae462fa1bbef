import GraphSnapshot.Proofs.Archive.Growth
import GraphSnapshot.Proofs.Snapshot.Transaction

/-! Archives as logs. Whatever is done with an archive, graphs saved and scopes that fail included, its
entries stay where they are. -/
namespace GraphSnapshot.Snapshot
open Archive

/-- Archives are append-only and the first write wins. In any run of operations the entries at the root
stay in front of those that are added, and none is added in an archive that is read; so do the entries
of a scope that stays open all the time, with the scopes around it as they were. Graphs may be saved
and loaded in such runs. Writes into one scope, whatever becomes of each, leave the first entry of
each name, in the order in which the names were first written. -/
theorem append_only (a : Archive) :
    (∀ {α : Type} {action : Action α}, Runs action →
      a.root <+: (a.perform action).2.root ∧
        (a.isWriting = false → (a.perform action).2.root = a.root)) ∧
    (∀ {α : Type} {action : Action α} inner scope outer, a.scopes = inner ++ scope :: outer →
      StaysAbove (outer.length + 1) action a →
      ∃ inner' more,
        (a.perform action).2.scopes = inner' ++ ⟨scope.key, scope.entries ++ more⟩ :: outer) ∧
    ((∀ g, Runs (save g)) ∧ Runs load ∧ ∀ floor, floor ≤ a.depth →
      (∀ g, StaysAbove floor (save g) a) ∧ StaysAbove floor load a) ∧
    (a.isWriting = true → a.current.Distinct → ∀ entries,
      a.perform (writeAll entries) =
        (.ok (), a.withCurrent (Entries.firsts (a.current ++ entries)))) := by
  refine ⟨?_, ?_, ⟨?_, ?_, ?_⟩, perform_writeAll⟩
  · intro α action runs
    have grown := runs.rootGrows a
    exact ⟨grown.kept, grown.same⟩
  · intro α action inner scope outer open_ stays
    have start : Growing { a with scopes := outer } scope a := by
      refine ⟨inner, [], ?_⟩
      rw [List.append_nil, ← open_]
    have above : StaysAbove (depth { a with scopes := outer } + 1) action a := stays
    obtain ⟨inner', more, same⟩ := above.growing start
    exact ⟨inner', more, congrArg Archive.scopes same⟩
  · exact fun g => (nested_save g).runs
  · exact nested_load.runs
  · intro floor deep
    exact ⟨fun g => (nested_save g).staysAbove deep, nested_load.staysAbove deep⟩

/-- A write that is refused, a scope that fails and a graph that is saved, where a scope is open. -/
theorem append_only_mixed :
    let a : Archive := ⟨.writing {}, [("k", .int 1)], [⟨"outer", [("x", .bool true)]⟩]⟩
    let b : Archive := ⟨.reading ⟨1, false, 0, 0⟩, [("k", .int 1)], []⟩
    let failing : Action Unit := do
      write "y" (.int 1)
      throw .io
    let action : Action Unit := do
      let _ ← outcome (write "x" (.bool false))
      let _ ← outcome (within "t" failing)
      save .empty
    [("k", .int 1)] <+: (a.perform action).2.root ∧ (b.perform action).2.root = [("k", .int 1)] ∧
      (∃ inner more, (a.perform action).2.scopes = inner ++ [⟨"outer", ("x", .bool true) :: more⟩]) ∧
      a.perform (writeAll [("x", .int 1), ("z", .int 2), ("z", .int 3)]) =
        (.ok (), a.withCurrent [("x", .bool true), ("z", .int 2)]) := by
  intro a b failing action
  obtain ⟨roots, scopes, ⟨saves, _, deep⟩, firsts⟩ := append_only a
  have nested : Nested (within "t" failing) := .within _ (.bind (.write _ _) fun _ => .throw _)
  have runs : Runs action :=
    .bind (.outcome (.write _ trivial)) fun _ => .bind (.outcome nested.runs) fun _ => saves .empty
  have stays : StaysAbove 1 action a := by
    refine .bind (.outcome (.write _ _)) ?_
    rintro _ _ ⟨⟩
    refine .bind (.outcome (nested.staysAbove (Nat.le_refl 1))) ?_
    rintro _ _ ⟨⟩
    exact (nested_save .empty).staysAbove (Nat.le_refl 1)
  refine ⟨(roots runs).1, ((append_only b).1 runs).2 rfl, ?_, firsts rfl (by decide) _⟩
  exact scopes [] ⟨"outer", [("x", .bool true)]⟩ [] rfl stays

end GraphSnapshot.Snapshot
