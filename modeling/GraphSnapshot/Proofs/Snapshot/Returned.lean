import GraphSnapshot.Proofs.Graph.Built
import GraphSnapshot.Proofs.Graph.WellFormed
import GraphSnapshot.Proofs.Snapshot.Loading

/-! The graphs that are returned. Every way of making a graph either gives a well-formed graph or
fails, and those that start from the fields of a graph fail only if the graph is not well-formed. -/
namespace GraphSnapshot

namespace Graph

/-- An attempt at a graph gives it if it is well-formed, and a violation if it is not. -/
structure Decides (attempt : Except Violation Graph) (g : Graph) : Prop where
  accepts : attempt = .ok g ↔ g.WellFormed
  refuses : (∃ cause, attempt = .error cause) ↔ ¬g.WellFormed

theorem decides_of_eq_ok_iff {attempt : Except Violation Graph} {g : Graph}
    (made : ∀ after, attempt = .ok after ↔ g.WellFormed ∧ g = after) : Decides attempt g := by
  have accepts : attempt = .ok g ↔ g.WellFormed := (made g).trans (and_iff_left rfl)
  refine ⟨accepts, ?_⟩
  rw [← accepts]
  cases attempt with
  | error cause => exact ⟨fun _ => nofun, fun _ => ⟨cause, rfl⟩⟩
  | ok after =>
      obtain ⟨_, rfl⟩ := (made after).mp rfl
      refine ⟨fun ⟨_, refused⟩ => ?_, fun other => absurd rfl other⟩
      cases refused

theorem decides_new (offsets targets : List Int64) :
    Decides (new offsets targets) (bare offsets targets) := by
  apply decides_of_eq_ok_iff
  intro after
  rw [new_eq_ok_iff, wellFormed_bare_iff]

theorem decides_validated (g : Graph) : Decides g.validated g := by
  apply decides_of_eq_ok_iff
  intro after
  rw [validated_eq_ok_iff, validate_eq_ok_iff]

theorem wellFormed_of_new {offsets targets : List Int64} {g : Graph}
    (made : new offsets targets = .ok g) : g.WellFormed := by
  obtain ⟨checked, rfl⟩ := new_eq_ok_iff.mp made
  exact wellFormed_bare_iff.mpr checked

theorem wellFormed_of_validated {g after : Graph} (made : g.validated = .ok after) :
    after.WellFormed := by
  obtain ⟨checked, rfl⟩ := validated_eq_ok_iff.mp made
  exact validate_eq_ok_iff.mp checked

theorem wellFormed_of_ofEdges {nodes : Nat} {edges : List (Int64 × Int64)} {g : Graph}
    (made : ofEdges nodes edges = .ok g) : g.WellFormed := by
  simp only [ofEdges, bind_eq_ok_iff] at made
  obtain ⟨_, _, _, _, _, _, _, _, new⟩ := made
  exact wellFormed_of_new new

end Graph

namespace Snapshot
open Archive (Action perform_bind perform_throw perform_lift)

/-- Whatever an action results in has a property. -/
def Yields {α : Type} (action : Action α) (p : α → Prop) : Prop :=
  ∀ (a : Archive) x after, a.perform action = (.ok x, after) → p x

theorem yields_bind {α β : Type} {action : Action α} {next : α → Action β} {p : β → Prop}
    (h : ∀ x, Yields (next x) p) : Yields (action >>= next) p := by
  intro a y last performed
  rw [perform_bind] at performed
  split at performed
  · next x after _ => exact h x after y last performed
  · cases performed

theorem yields_validated (g : Graph) :
    Yields (liftM (g.validated.mapError Fault.violation)) Graph.WellFormed := by
  intro a after last performed
  rw [perform_lift] at performed
  obtain ⟨made, _⟩ := Prod.mk.inj performed
  exact Graph.wellFormed_of_validated (mapError_eq_ok_iff.mp made)

/-- Checking the graph is the last step of loading. -/
theorem yields_load : Yields load Graph.WellFormed := by
  rw [load_eq]
  exact yields_bind fun _ => yields_bind fun _ => yields_bind fun g => yields_validated g

theorem wellFormed_of_deserialize [Zlib] {data : List UInt8} {g : Graph}
    (made : deserialize data = .ok g) : g.WellFormed := by
  obtain ⟨a, _, loaded⟩ := bind_eq_ok_iff.mp made
  exact yields_load a g (a.perform load).2 (Prod.ext loaded rfl)

/-- Loading that fails leaves the graph in whose place it would have put another. -/
theorem wellFormed_loadInto {target : Graph} (well : target.WellFormed) (a : Archive) :
    (loadInto target a).2.1.WellFormed := by
  rw [loadInto]
  split
  · next g after performed => exact yields_load a g after performed
  · exact well

/-- Graphs that some operation returns, whatever the operation works on. -/
inductive Returned [Zlib] : Graph → Prop
  | empty : Returned .empty
  | new {offsets targets : List Int64} {g : Graph} : Graph.new offsets targets = .ok g → Returned g
  | ofEdges {nodes : Nat} {edges : List (Int64 × Int64)} {g : Graph} :
      Graph.ofEdges nodes edges = .ok g → Returned g
  | withNodeRanges {g after : Graph} {ranges : List Int64} :
      g.withNodeRanges ranges = .ok after → Returned after
  | withEdgeTypes {g after : Graph} {types : List UInt8} :
      g.withEdgeTypes types = .ok after → Returned after
  | withNodeTypeIds {g after : Graph} {ids : TypeIds} :
      g.withNodeTypeIds ids = .ok after → Returned after
  | withEdgeTypeIds {g after : Graph} {ids : TypeIds} :
      g.withEdgeTypeIds ids = .ok after → Returned after
  | withNodeTable {g after : Graph} {table : Table} :
      g.withNodeTable table = .ok after → Returned after
  | withEdgeTable {g after : Graph} {table : Table} :
      g.withEdgeTable table = .ok after → Returned after
  | load {a after : Archive} {g : Graph} : a.perform load = (.ok g, after) → Returned g
  | loadInto {target : Graph} (a : Archive) :
      Returned target → Returned (loadInto target a).2.1
  | deserialize {data : List UInt8} {g : Graph} : deserialize data = .ok g → Returned g

theorem Returned.wellFormed [Zlib] {g : Graph} (h : Returned g) : g.WellFormed := by
  induction h with
  | empty => exact Graph.wellFormed_of_new (rfl : Graph.new [0] [] = .ok .empty)
  | new made => exact Graph.wellFormed_of_new made
  | ofEdges made => exact Graph.wellFormed_of_ofEdges made
  | withNodeRanges made | withEdgeTypes made | withNodeTypeIds made | withEdgeTypeIds made
  | withNodeTable made | withEdgeTable made => exact Graph.wellFormed_of_validated made
  | load performed => exact yields_load _ _ _ performed
  | loadInto a _ ih => exact wellFormed_loadInto ih a
  | deserialize made => exact wellFormed_of_deserialize made

/-- Whether fields make a graph is decided by well-formedness alone, and no operation returns a graph
that is not well-formed. -/
theorem wellFormed_decides [Zlib] :
    (∀ offsets targets, Graph.Decides (Graph.new offsets targets) (.bare offsets targets)) ∧
    (∀ g : Graph,
      (∀ ranges, Graph.Decides (g.withNodeRanges ranges) { g with nodeRanges := some ranges }) ∧
      (∀ types, Graph.Decides (g.withEdgeTypes types) { g with edgeTypes := some types }) ∧
      (∀ ids, Graph.Decides (g.withNodeTypeIds ids) { g with nodeTypeIds := some ids }) ∧
      (∀ ids, Graph.Decides (g.withEdgeTypeIds ids) { g with edgeTypeIds := some ids }) ∧
      (∀ table, Graph.Decides (g.withNodeTable table) { g with nodeTable := some table }) ∧
      (∀ table, Graph.Decides (g.withEdgeTable table) { g with edgeTable := some table })) ∧
    ∀ g, Returned g → g.WellFormed := by
  refine ⟨Graph.decides_new, fun g => ⟨?_, ?_, ?_, ?_, ?_, ?_⟩, fun g => Returned.wellFormed⟩
  all_goals
    intro field
    exact Graph.decides_validated _

/-- Names that are not in the order of their ids, and a type without nodes. -/
theorem wellFormed_decides_typed :
    let ids : TypeIds := ⟨[("author", 1), ("paper", 0)], by decide⟩
    let g : Graph := { Graph.bare [0, 1, 2] [1, 0] with nodeTypeIds := some ids }
    let typed : Graph := { g with nodeRanges := some [0, 0, 2] }
    g.withNodeRanges [0, 0, 2] = .ok typed ∧ (∃ cause, g.withNodeRanges [0, 2] = .error cause) ∧
      typed.WellFormed := by
  intro ids g typed
  let _ := Zlib.sample
  obtain ⟨_, decides, wellFormed⟩ := wellFormed_decides
  have made : g.withNodeRanges [0, 0, 2] = .ok typed :=
    ((decides g).1 [0, 0, 2]).accepts.mpr (by decide)
  have refused := ((decides g).1 [0, 2]).refuses.mpr (by decide)
  exact ⟨made, refused, wellFormed typed (.withNodeRanges made)⟩

end Snapshot
end GraphSnapshot
