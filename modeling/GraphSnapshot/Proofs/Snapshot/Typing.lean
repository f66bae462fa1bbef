import GraphSnapshot.Proofs.Graph.Parts
import GraphSnapshot.Proofs.Snapshot.Returned

/-! Types. In a graph whose types are named, the type of each node and of each edge has one name. -/
namespace GraphSnapshot.Snapshot
open GraphSnapshot.Graph (Covers)
variable {g : Graph} {ids : TypeIds}

/-- As there is one range for each name, the ranges are numbered like the names. -/
theorem existsUnique_name_of_covers (well : g.WellFormed) {ranges : List Int64}
    (ranged : g.nodeRanges = some ranges) (named : g.nodeTypeIds = some ids) {i v : Nat}
    (covers : Covers ranges i v) : ∃! name, ids.Names name i := by
  obtain ⟨_, last, _, next, _⟩ := covers
  have length := (well.nodeRanges ranges ranged).2 ids named
  obtain ⟨inside, _⟩ := List.getElem?_eq_some_iff.mp next
  exact (well.nodeTypeIds ids named).existsUnique_name (by omega) (by omega)

theorem existsUnique_name_of_edgeType (well : g.WellFormed) {types : List UInt8}
    (typed : g.edgeTypes = some types) (named : g.edgeTypeIds = some ids) {type : UInt8}
    (member : type ∈ types) : ∃! name, ids.Names name type.toNat := by
  have small := (well.edgeTypes types typed).2 ids named type member
  exact (well.edgeTypeIds ids named).existsUnique_name (by omega) (by omega)

/-- Each node lies in one range, each edge has one type, and the number of either is the id of one
name. -/
theorem one_named_type [Zlib] {g : Graph} (returned : Returned g) :
    (∀ ranges ids, g.nodeRanges = some ranges → g.nodeTypeIds = some ids → ∀ v < g.nodeCount,
      (∃! i, Covers ranges i v) ∧ ∀ i, Covers ranges i v → ∃! name, ids.Names name i) ∧
    ∀ types ids, g.edgeTypes = some types → g.edgeTypeIds = some ids → ∀ k < g.edgeCount,
      ∃ type, types[k]? = some type ∧ ∃! name, ids.Names name type.toNat := by
  have well := returned.wellFormed
  refine ⟨?_, ?_⟩
  · intro ranges ids ranged named v node
    have divides := (well.nodeRanges ranges ranged).1
    exact ⟨divides.existsUnique_covers node,
      fun i covers => existsUnique_name_of_covers well ranged named covers⟩
  · intro types ids typed named k edge
    have length := (well.edgeTypes types typed).1
    have inside : k < types.length := length ▸ edge
    exact ⟨types[k], List.getElem?_eq_getElem inside,
      existsUnique_name_of_edgeType well typed named (List.getElem_mem inside)⟩

/-- The first type has no nodes, so the node lies in the range behind the empty one, and of the types
of edges the second is used. -/
theorem one_named_type_empty :
    let _ := Zlib.sample
    let ids : TypeIds := ⟨[("author", 1), ("paper", 0)], by decide⟩
    let ranged : Graph := { Graph.bare [0, 1] [0] with
      nodeRanges := some [0, 0, 1], edgeTypes := some [1], edgeTypeIds := some ids }
    let g : Graph := { ranged with nodeTypeIds := some ids }
    Returned g ∧ (∃! i, Covers [0, 0, 1] i 0) ∧ (∃! name, ids.Names name 1) ∧
      ∃ type, [(1 : UInt8)][0]? = some type ∧ ∃! name, ids.Names name type.toNat := by
  intro known ids ranged g
  have attached : ranged.withNodeTypeIds ids = .ok g := rfl
  have made : Returned g := .withNodeTypeIds attached
  obtain ⟨nodes, edges⟩ := one_named_type made
  obtain ⟨one, named⟩ := nodes [0, 0, 1] ids rfl rfl 0 (by decide)
  exact ⟨made, one, named 1 ⟨0, 1, rfl, rfl, by decide, by decide⟩, edges [1] ids rfl rfl 0 (by decide)⟩

end GraphSnapshot.Snapshot
