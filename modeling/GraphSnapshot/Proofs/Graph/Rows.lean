import GraphSnapshot.Proofs.Graph.Parts

/-! Rows. The targets of a well-formed graph are the rows of its nodes one behind the other, so the
neighbours of the nodes and the edges are two views of the same rows. -/
namespace GraphSnapshot.Graph

def rowStart (g : Graph) (node : Nat) : Nat := (g.offsets.getD node 0).toNatClampNeg

/-- The targets from the offset of a node up to the next one. -/
def row (g : Graph) (node : Nat) : List Int64 :=
  slice g.targets.toArray (g.offsets.getD node 0) (g.offsets.getD (node + 1) 0)

def rowEdges (g : Graph) (node : Nat) : List (Int64 × Int64) :=
  (g.row node).map fun target => (Int64.ofNat node, target)

variable {g : Graph} {node : Nat}

theorem row_eq (g : Graph) (node : Nat) :
    g.row node = (g.targets.drop (g.rowStart node)).take (g.rowStart (node + 1) - g.rowStart node) :=
  slice_toArray _ _ _

theorem offsets_getElem? (inside : node ≤ g.nodeCount) (some_ : g.offsets ≠ []) :
    g.offsets[node]? = some (g.offsets.getD node 0) := by
  have positive := List.length_pos_iff.mpr some_
  rw [nodeCount] at inside
  rw [List.getD_eq_getElem?_getD, List.getElem?_eq_getElem (by omega), Option.getD_some]

theorem neighbors?_eq (g : Graph) (node : Nat) :
    g.neighbors? node = if node < g.nodeCount then some (g.row node) else none := by
  rw [neighbors?, nodeCount]
  split
  · next first last rest behind =>
    have length := congrArg List.length behind
    simp only [List.length_drop, List.length_cons] at length
    have place (i : Nat) : g.offsets[node + i]? = (first :: last :: rest)[i]? := by
      rw [← behind, List.getElem?_drop]
    have here : g.offsets[node]? = some first := place 0
    have next : g.offsets[node + 1]? = some last := place 1
    rw [if_pos (by omega), row, List.getD_eq_getElem?_getD, List.getD_eq_getElem?_getD, here, next]
    rfl
  · next few =>
    rw [if_neg]
    intro inside
    have here : node < g.offsets.length := by omega
    have next : node + 1 < g.offsets.length := by omega
    exact few _ _ _ ((List.drop_eq_getElem_cons here).trans
      (congrArg (g.offsets[node] :: ·) (List.drop_eq_getElem_cons next)))

theorem spans_eq (g : Graph) : g.spans =
    (List.range g.nodeCount).map fun v => ((g.offsets.getD v 0, g.offsets.getD (v + 1) 0), v) := by
  apply List.ext_getElem
  · simp [spans, nodeCount]
  · intro v here there
    simp only [spans, List.length_zipIdx, List.length_zip, List.length_tail] at here
    simp [spans, List.getElem?_eq_getElem (show v < g.offsets.length by omega),
      List.getElem?_eq_getElem (show v + 1 < g.offsets.length by omega)]

theorem edges_eq (g : Graph) : g.edges = (List.range g.nodeCount).flatMap g.rowEdges := by
  rw [edges, spans_eq, List.flatMap_map]
  rfl

theorem map_snd_flatMap_rowEdges (g : Graph) (nodes : List Nat) :
    (nodes.flatMap g.rowEdges).map Prod.snd = nodes.flatMap g.row := by
  have row : (fun v => (g.rowEdges v).map Prod.snd) = g.row := by
    funext v
    simp [rowEdges, Function.comp_def]
  rw [List.map_flatMap, row]

theorem edges_eq_append (inside : node ≤ g.nodeCount) :
    g.edges = (List.range node).flatMap g.rowEdges ++
      (List.range (g.nodeCount - node)).flatMap fun v => g.rowEdges (node + v) := by
  conv_lhs => rw [edges_eq, ← Nat.add_sub_of_le inside]
  rw [List.range_add, List.flatMap_append, List.flatMap_map]

namespace Divides
variable (divides : Divides g.offsets g.targets.length)
include divides

theorem ne_nil : g.offsets ≠ [] := by
  intro none
  have start := divides.start
  rw [none] at start
  cases start

theorem toInt_getD (inside : node ≤ g.nodeCount) :
    (g.offsets.getD node 0).toInt = g.rowStart node := by
  have found := offsets_getElem? inside divides.ne_nil
  have positive := (divides.bounds (List.mem_of_getElem? found)).1
  rw [rowStart, ← Int64.toNat_toInt]
  omega

theorem rowStart_zero : g.rowStart 0 = 0 := by
  have start := divides.start
  rw [List.head?_eq_getElem?] at start
  rw [rowStart, List.getD_eq_getElem?_getD, start]
  rfl

theorem rowStart_nodeCount : g.rowStart g.nodeCount = g.targets.length := by
  obtain ⟨last, place, same⟩ := Option.map_eq_some_iff.mp divides.finish
  rw [List.getLast?_eq_getElem?, ← nodeCount] at place
  have start := divides.toInt_getD (Nat.le_refl _)
  rw [List.getD_eq_getElem?_getD, place, Option.getD_some, same] at start
  exact Int.ofNat_inj.mp start.symm

theorem rowStart_le {later : Nat} (order : node ≤ later) (inside : later ≤ g.nodeCount) :
    g.rowStart node ≤ g.rowStart later := by
  have here := Nat.le_trans order inside
  have le := toInt_le_of_ascending divides.ascending order (offsets_getElem? here divides.ne_nil)
    (offsets_getElem? inside divides.ne_nil)
  rw [divides.toInt_getD here, divides.toInt_getD inside] at le
  exact Int.ofNat_le.mp le

theorem flatMap_row (inside : node ≤ g.nodeCount) :
    (List.range node).flatMap g.row = g.targets.take (g.rowStart node) := by
  induction node with
  | zero => rw [divides.rowStart_zero]; rfl
  | succ node ih =>
      have next := divides.rowStart_le (Nat.le_succ node) inside
      rw [List.range_succ, List.flatMap_append, ih (Nat.le_of_succ_le inside), List.flatMap_singleton,
        row_eq, ← List.take_add, Nat.add_sub_cancel' next]

theorem flatMap_row_nodeCount : (List.range g.nodeCount).flatMap g.row = g.targets := by
  rw [divides.flatMap_row (Nat.le_refl _), divides.rowStart_nodeCount, List.take_length]

theorem length_flatMap_rowEdges (inside : node ≤ g.nodeCount) :
    ((List.range node).flatMap g.rowEdges).length = g.rowStart node := by
  have last := divides.rowStart_le inside (Nat.le_refl _)
  rw [divides.rowStart_nodeCount] at last
  rw [← List.length_map, map_snd_flatMap_rowEdges, divides.flatMap_row inside, List.length_take,
    Nat.min_eq_left last]

theorem map_snd_edges : g.edges.map Prod.snd = g.targets := by
  rw [edges_eq, map_snd_flatMap_rowEdges, divides.flatMap_row_nodeCount]

theorem length_edges : g.edges.length = g.edgeCount := by
  rw [← List.length_map, divides.map_snd_edges, edgeCount]

theorem getElem?_edges {source k : Nat} (covers : Covers g.offsets source k) :
    ∃ target, g.targets[k]? = some target ∧ g.edges[k]? = some (Int64.ofNat source, target) := by
  obtain ⟨first, last, here, next, below, above⟩ := covers
  obtain ⟨inside, _⟩ := List.getElem?_eq_some_iff.mp next
  have succ : source + 1 ≤ g.nodeCount := by rw [nodeCount]; omega
  have node := Nat.le_of_succ_le succ
  have start := divides.toInt_getD node
  have stop := divides.toInt_getD succ
  rw [List.getD_eq_getElem?_getD, here, Option.getD_some] at start
  rw [List.getD_eq_getElem?_getD, next, Option.getD_some] at stop
  have small : k < g.targets.length := by
    have := divides.rowStart_le succ (Nat.le_refl _)
    rw [divides.rowStart_nodeCount] at this
    omega
  refine ⟨g.targets[k], List.getElem?_eq_getElem small, ?_⟩
  have front := divides.length_flatMap_rowEdges node
  have whole := divides.length_flatMap_rowEdges succ
  rw [edges_eq_append succ, List.getElem?_append_left (by omega),
    List.range_succ, List.flatMap_append, List.flatMap_singleton,
    List.getElem?_append_right (by omega), front, rowEdges, List.getElem?_map, row_eq,
    List.getElem?_take_of_lt (by omega), List.getElem?_drop,
    show g.rowStart source + (k - g.rowStart source) = k by omega, List.getElem?_eq_getElem small]
  rfl

end Divides

theorem toInt_ofNat {n : Nat} (small : n ≤ Int64.maxValue.toInt) : (Int64.ofNat n).toInt = n := by
  have limit : Int64.maxValue.toInt = 9223372036854775807 := rfl
  exact Int64.toInt_ofNat_of_lt (by omega)

theorem pairwise_edges (room : g.nodeCount ≤ Int64.maxValue.toInt) :
    g.edges.Pairwise fun a b => a.1 ≤ b.1 := by
  rw [edges_eq, List.pairwise_flatMap]
  refine ⟨?_, List.pairwise_lt_range.imp_of_mem ?_⟩
  · intro v _
    exact List.pairwise_map.mpr (List.pairwise_of_forall fun _ _ => Int64.le_refl _)
  · intro v w _ later less a first b second
    obtain ⟨_, _, rfl⟩ := List.mem_map.mp first
    obtain ⟨_, _, rfl⟩ := List.mem_map.mp second
    have inside := List.mem_range.mp later
    rw [Int64.le_iff_toInt_le, toInt_ofNat (by omega), toInt_ofNat (by omega)]
    omega

def countBelow (edges : List (Int64 × Int64)) (node : Nat) : Nat :=
  edges.countP fun edge => edge.1.toInt < (node : Int)

theorem Divides.countBelow_edges (divides : Divides g.offsets g.targets.length)
    (room : g.nodeCount ≤ Int64.maxValue.toInt) (inside : node ≤ g.nodeCount) :
    countBelow g.edges node = g.rowStart node := by
  have front : countBelow ((List.range node).flatMap g.rowEdges) node =
      ((List.range node).flatMap g.rowEdges).length := by
    rw [countBelow, List.countP_eq_length]
    intro edge member
    obtain ⟨v, earlier, member⟩ := List.mem_flatMap.mp member
    obtain ⟨_, _, rfl⟩ := List.mem_map.mp member
    have := List.mem_range.mp earlier
    rw [decide_eq_true_eq, toInt_ofNat (by omega)]
    omega
  have back : countBelow ((List.range (g.nodeCount - node)).flatMap fun v => g.rowEdges (node + v))
      node = 0 := by
    rw [countBelow, List.countP_eq_zero]
    intro edge member
    obtain ⟨v, later, member⟩ := List.mem_flatMap.mp member
    obtain ⟨_, _, rfl⟩ := List.mem_map.mp member
    have := List.mem_range.mp later
    rw [decide_eq_true_eq, toInt_ofNat (by omega)]
    omega
  rw [countBelow] at front back ⊢
  rw [edges_eq_append inside, List.countP_append, front, back,
    divides.length_flatMap_rowEdges inside, Nat.add_zero]

theorem Divides.offsets_eq (divides : Divides g.offsets g.targets.length) :
    g.offsets = (List.range (g.nodeCount + 1)).map fun v => Int64.ofNat (g.rowStart v) := by
  have positive := List.length_pos_iff.mpr divides.ne_nil
  apply List.ext_getElem
  · rw [List.length_map, List.length_range, nodeCount]
    omega
  · intro v inside _
    have found : g.offsets.getD v 0 = g.offsets[v] := by
      rw [List.getD_eq_getElem?_getD, List.getElem?_eq_getElem inside, Option.getD_some]
    have zero := (divides.bounds (List.getElem_mem inside)).1
    rw [List.getElem_map, List.getElem_range, rowStart, found]
    exact (Int64.ofNat_toNatClampNeg _ (Int64.le_iff_toInt_le.mpr zero)).symm

theorem eq_of_edges {h : Graph} (divides : Divides g.offsets g.targets.length)
    (divides' : Divides h.offsets h.targets.length) (room : g.nodeCount ≤ Int64.maxValue.toInt)
    (nodes : g.nodeCount = h.nodeCount) (edges : g.edges = h.edges) :
    g.offsets = h.offsets ∧ g.targets = h.targets := by
  refine ⟨?_, ?_⟩
  · rw [divides.offsets_eq, divides'.offsets_eq, nodes]
    refine List.map_congr_left fun v member => congrArg Int64.ofNat ?_
    have inside := Nat.le_of_lt_succ (List.mem_range.mp member)
    rw [← divides'.countBelow_edges (nodes ▸ room) inside, ← edges,
      divides.countBelow_edges room (nodes ▸ inside)]
  · rw [← divides.map_snd_edges, ← divides'.map_snd_edges, edges]

end GraphSnapshot.Graph
