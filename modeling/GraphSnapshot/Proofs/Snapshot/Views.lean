import GraphSnapshot.Proofs.Graph.Grouping
import GraphSnapshot.Proofs.Snapshot.Returned

/-! Views. What the neighbours and the edges of a graph show is what the graph stores, and the edges
are enough to make its offsets and targets again. -/
namespace GraphSnapshot

namespace Graph
variable {g : Graph} {node : Nat}

/-- The offsets of a row are those of places in the targets, the first one before the second one. -/
theorem Divides.exists_neighbors (divides : Divides g.offsets g.targets.length)
    (inside : node < g.nodeCount) : ∃ first last,
      g.offsets[node]? = some first ∧ g.offsets[node + 1]? = some last ∧
      0 ≤ first.toInt ∧ first.toInt ≤ last.toInt ∧ last.toInt ≤ g.edgeCount ∧
      g.neighbors? node = some (slice g.targets.toArray first last) := by
  have succ : node + 1 ≤ g.nodeCount := inside
  have here := offsets_getElem? (Nat.le_of_lt inside) divides.ne_nil
  have next := offsets_getElem? succ divides.ne_nil
  refine ⟨_, _, here, next, ?_, ?_, ?_, ?_⟩
  · exact (divides.bounds (List.mem_of_getElem? here)).1
  · exact toInt_le_of_ascending divides.ascending (Nat.le_succ node) here next
  · exact (divides.bounds (List.mem_of_getElem? next)).2
  · rw [neighbors?_eq, if_pos inside, row]

theorem WellFormed.joins (well : g.WellFormed) (room : g.nodeCount ≤ Int64.maxValue.toInt) :
    ∀ edge ∈ g.edges, Joins g.nodeCount edge := by
  intro edge member
  rw [edges_eq] at member
  obtain ⟨v, node, member⟩ := List.mem_flatMap.mp member
  obtain ⟨target, listed, rfl⟩ := List.mem_map.mp member
  have inside := List.mem_range.mp node
  have stored : target ∈ g.targets := by
    rw [← well.offsets.flatMap_row_nodeCount]
    exact List.mem_flatMap.mpr ⟨v, node, listed⟩
  refine ⟨?_, well.targets target stored⟩
  rw [IsNode, toInt_ofNat (by omega)]
  omega

theorem Divides.room (divides : Divides g.offsets g.targets.length) :
    g.edges.length ≤ Int64.maxValue.toInt := by
  obtain ⟨last, _, same⟩ := Option.map_eq_some_iff.mp divides.finish
  have small := last.toInt_le
  rw [divides.length_edges, edgeCount, ← same]
  exact small

theorem WellFormed.ofEdges_edges (well : g.WellFormed)
    (room : g.nodeCount ≤ Int64.maxValue.toInt) :
    ofEdges g.nodeCount g.edges = .ok (bare g.offsets g.targets) := by
  have joins := well.joins room
  have few := well.offsets.room
  have sources := sources_of_joins joins
  obtain ⟨targets, filled, made⟩ := exists_ofEdges_eq_grouped joins few
  have nodes : (grouped g.nodeCount g.edges targets).nodeCount = g.nodeCount := nodeCount_grouped
  have sorted := pairwise_edges room
  have edges : (grouped g.nodeCount g.edges targets).edges = g.edges := by
    rw [edges_grouped sources few filled]
    exact List.mergeSort_of_pairwise (sorted.imp decide_eq_true)
  have divides := divides_grouped sources few filled
  obtain ⟨offsets, targets⟩ := eq_of_edges divides well.offsets (by rwa [nodes]) nodes edges
  rw [made, ← offsets, ← targets]
  rfl

end Graph

namespace Snapshot
open GraphSnapshot.Graph (Covers)

/-- A graph that is returned shows what it stores: the row of each of its nodes, which lies in the
targets, all targets in the order of the nodes, and with each target the one source whose row covers
its place. Its nodes and edges make a graph with the same offsets and targets; here the number of
nodes is one of a list in memory, so that each of them is a word. -/
theorem views_agree [Zlib] {g : Graph} (returned : Returned g) :
    (∀ v, (g.neighbors? v).isSome ↔ v < g.nodeCount) ∧
    (∀ v < g.nodeCount, ∃ first last,
      g.offsets[v]? = some first ∧ g.offsets[v + 1]? = some last ∧
      0 ≤ first.toInt ∧ first.toInt ≤ last.toInt ∧ last.toInt ≤ g.edgeCount ∧
      g.neighbors? v = some (Graph.slice g.targets.toArray first last)) ∧
    ((List.range g.nodeCount).flatMap fun v => (g.neighbors? v).getD []) = g.targets ∧
    g.edges.length = g.edgeCount ∧
    (∀ k < g.edgeCount, ∃ s target, (∀ s', Covers g.offsets s' k ↔ s' = s) ∧
      g.targets[k]? = some target ∧ g.edges[k]? = some (Int64.ofNat s, target)) ∧
    (g.nodeCount ≤ Int64.maxValue.toInt →
      Graph.ofEdges g.nodeCount g.edges = .ok (.bare g.offsets g.targets)) := by
  have well := returned.wellFormed
  have divides := well.offsets
  refine ⟨?_, ?_, ?_, divides.length_edges, ?_, well.ofEdges_edges⟩
  · intro v
    rw [Graph.neighbors?_eq]
    split
    · next inside => exact ⟨fun _ => inside, fun _ => rfl⟩
    · next outside => exact ⟨nofun, fun inside => absurd inside outside⟩
  · intro v inside
    exact divides.exists_neighbors inside
  · refine (List.flatMap_congr fun v member => ?_).trans divides.flatMap_row_nodeCount
    rw [Graph.neighbors?_eq, if_pos (List.mem_range.mp member), Option.getD_some]
  · intro k small
    obtain ⟨s, covers, unique⟩ := divides.existsUnique_covers small
    obtain ⟨target, stored, edge⟩ := divides.getElem?_edges covers
    refine ⟨s, target, fun s' => ⟨unique s', ?_⟩, stored, edge⟩
    rintro rfl
    exact covers

/-- The row of the node between the two others is empty. -/
theorem views_agree_gap :
    let _ := Zlib.sample
    let g : Graph := .bare [0, 2, 2, 3] [1, 0, 2]
    Returned g ∧ g.neighbors? 1 = some [] ∧ g.neighbors? 3 = none ∧
      g.edges[2]? = some (2, 2) ∧ Graph.ofEdges 3 g.edges = .ok g := by
  intro known g
  have made : Returned g := .new (rfl : Graph.new [0, 2, 2, 3] [1, 0, 2] = .ok g)
  obtain ⟨defined, rows, _, _, places, again⟩ := views_agree made
  obtain ⟨first, last, here, next, _, _, _, row⟩ := rows 1 (by decide)
  obtain rfl := Option.some.inj here
  obtain rfl := Option.some.inj next
  obtain ⟨s, target, covers, stored, edge⟩ := places 2 (by decide)
  obtain rfl := (covers 2).mp ⟨2, 3, rfl, rfl, by decide, by decide⟩
  obtain rfl := Option.some.inj stored
  have none : g.neighbors? 3 = none :=
    Option.not_isSome_iff_eq_none.mp (mt (defined 3).mp (by decide))
  exact ⟨made, row, none, edge, again (by decide)⟩

end Snapshot
end GraphSnapshot
