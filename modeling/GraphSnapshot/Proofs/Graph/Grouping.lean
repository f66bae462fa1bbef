import GraphSnapshot.Proofs.Graph.Built
import GraphSnapshot.Proofs.Graph.Counting

/-! Grouping. A graph that is made of a list of edges has them grouped by their sources, and the edges
of each source in the order of the list: its edges are the list, sorted by the sources with a sort
that is stable. -/
namespace GraphSnapshot.Graph

section Sorting
variable {α : Type} {key : α → Int} {items : List α}

theorem filter_lt_append_filter_eq (sorted : items.Pairwise fun a b => key a ≤ key b) (bound : Int) :
    items.filter (key · < bound) ++ items.filter (key · = bound) =
      items.filter (key · < bound + 1) := by
  induction items with
  | nil => rfl
  | cons first rest ih =>
      obtain ⟨least, sorted⟩ := List.pairwise_cons.mp sorted
      have later := ih sorted
      simp only [List.filter_cons, decide_eq_true_eq]
      by_cases below : key first < bound
      · rw [if_pos below, if_neg (by omega), if_pos (by omega), List.cons_append, later]
      · -- What comes later is not below the bound either.
        have none : rest.filter (key · < bound) = [] := by
          refine List.filter_eq_nil_iff.mpr fun item member => ?_
          have := least item member
          simp only [decide_eq_true_eq]
          omega
        rw [none, List.nil_append] at later
        by_cases equal : key first = bound
        · rw [if_neg below, if_pos equal, if_pos (by omega), none, List.nil_append, later]
        · rw [if_neg below, if_neg equal, if_neg (by omega), none, List.nil_append, later]

/-- What is sorted is the items of each key, one key after another. -/
theorem flatMap_filter_of_sorted (sorted : items.Pairwise fun a b => key a ≤ key b)
    (positive : ∀ item ∈ items, 0 ≤ key item) (count : Nat) :
    ((List.range count).flatMap fun v : Nat => items.filter (key · = (v : Int))) =
      items.filter (key · < (count : Int)) := by
  induction count with
  | zero =>
      refine (List.filter_eq_nil_iff.mpr fun item member => ?_).symm
      rw [decide_eq_true_eq]
      exact Int.not_lt.mpr (positive item member)
  | succ count ih =>
      rw [List.range_succ, List.flatMap_append, ih, List.flatMap_singleton,
        filter_lt_append_filter_eq sorted]
      rfl

/-- Sorting keeps the order of the items that were in order. -/
theorem filter_mergeSort {le : α → α → Bool} (trans : ∀ a b c, le a b → le b c → le a c)
    (total : ∀ a b, le a b || le b a) {p : α → Bool} (ordered : (items.filter p).Pairwise (le · ·)) :
    (items.mergeSort le).filter p = items.filter p := by
  have kept := (List.sublist_mergeSort trans total ordered List.filter_sublist).filter p
  simp only [List.filter_filter, Bool.and_self] at kept
  exact (kept.eq_of_length ((List.mergeSort_perm items le).filter p).length_eq.symm).symm

end Sorting

variable {nodes : Nat} {edges : List (Int64 × Int64)}

/-- Edges sorted by their sources are the edges of each node, one node after another. -/
theorem flatMap_filter_eq_mergeSort (sources : ∀ edge ∈ edges, IsNode nodes edge.1) :
    ((List.range nodes).flatMap fun v : Nat => edges.filter fun edge => edge.1.toInt = (v : Int)) =
      edges.mergeSort fun a b => a.1 ≤ b.1 := by
  have trans (a b c : Int64 × Int64) :
      decide (a.1 ≤ b.1) → decide (b.1 ≤ c.1) → decide (a.1 ≤ c.1) := by
    simp only [decide_eq_true_eq]
    exact Int64.le_trans
  have total (a b : Int64 × Int64) : decide (a.1 ≤ b.1) || decide (b.1 ≤ a.1) := by
    simp only [Bool.or_eq_true, decide_eq_true_eq]
    exact Int64.le_total _ _
  have sorted : (edges.mergeSort fun a b => a.1 ≤ b.1).Pairwise fun a b => a.1.toInt ≤ b.1.toInt := by
    refine (List.pairwise_mergeSort trans total edges).imp fun le => ?_
    exact Int64.le_iff_toInt_le.mp (decide_eq_true_eq.mp le)
  have same (v : Nat) : edges.filter (fun edge => edge.1.toInt = (v : Int)) =
      (edges.mergeSort fun a b => a.1 ≤ b.1).filter fun edge => edge.1.toInt = (v : Int) := by
    refine (filter_mergeSort trans total ?_).symm
    refine List.pairwise_of_forall_mem_list fun a first b second => ?_
    have here := decide_eq_true_eq.mp (List.mem_filter.mp first).2
    have there := decide_eq_true_eq.mp (List.mem_filter.mp second).2
    exact decide_eq_true (Int64.le_iff_toInt_le.mpr (by omega))
  simp only [same]
  rw [flatMap_filter_of_sorted sorted, List.filter_eq_self]
  · intro edge member
    exact decide_eq_true (sources edge (List.mem_mergeSort.mp member)).2
  · intro edge member
    exact (sources edge (List.mem_mergeSort.mp member)).1

/-- The graph with a row for each node, as many targets long as there are edges from the node. -/
def grouped (nodes : Nat) (edges : List (Int64 × Int64)) (targets : List Int64) : Graph :=
  bare ((List.range (nodes + 1)).map fun v => Int64.ofNat (countBelow edges v)) targets

section Grouped
variable {targets : List Int64} (sources : ∀ edge ∈ edges, IsNode nodes edge.1)
  (room : edges.length ≤ Int64.maxValue.toInt) (filled : Filled edges targets)

theorem nodeCount_grouped : (grouped nodes edges targets).nodeCount = nodes := by
  simp [grouped, bare, nodeCount]

include room in
theorem toInt_countBelow (node : Nat) :
    (Int64.ofNat (countBelow edges node)).toInt = countBelow edges node := by
  have := countBelow_le_length edges node
  exact toInt_ofNat (by omega)

include room in
theorem rowStart_grouped {node : Nat} (inside : node ≤ nodes) :
    (grouped nodes edges targets).rowStart node = countBelow edges node := by
  have found : (grouped nodes edges targets).offsets.getD node 0 =
      Int64.ofNat (countBelow edges node) := by
    simp [grouped, bare, Nat.lt_succ_of_le inside]
  rw [rowStart, found, ← Int64.toNat_toInt, toInt_countBelow room, Int.toNat_natCast]

include sources room filled in
theorem divides_grouped :
    Divides (grouped nodes edges targets).offsets (grouped nodes edges targets).targets.length := by
  refine ⟨?_, ?_, ?_⟩
  · rw [grouped, bare, List.range_succ_eq_map, List.map_cons, countBelow_zero sources]
    rfl
  · refine List.pairwise_map.mpr (List.pairwise_lt_range.imp fun less => ?_)
    rw [Int64.le_iff_toInt_le, toInt_countBelow room, toInt_countBelow room]
    exact Int.ofNat_le.mpr (countBelow_le edges (Nat.le_of_lt less))
  · rw [grouped, bare, filled.length, List.range_succ, List.map_append, List.map_singleton,
      List.getLast?_concat]
    exact congrArg some ((toInt_countBelow room nodes).trans
      (congrArg Nat.cast (countBelow_nodes sources)))

include room filled in
theorem row_grouped {node : Nat} (inside : node < nodes) :
    (grouped nodes edges targets).row node = targetsFrom edges node := by
  have next : node + 1 ≤ nodes := inside
  rw [row_eq, rowStart_grouped room (Nat.le_of_lt inside), rowStart_grouped room next, countBelow_succ,
    Nat.add_sub_cancel_left]
  apply List.ext_getElem?
  intro j
  by_cases taken : j < (targetsFrom edges node).length
  · have found := List.getElem?_eq_getElem taken
    rw [List.getElem?_take_of_lt taken, List.getElem?_drop, found]
    exact filled.rows node j _ found
  · rw [List.getElem?_eq_none (Nat.le_of_not_lt taken), List.getElem?_eq_none]
    rw [List.length_take]
    omega

include sources room filled in
theorem edges_grouped :
    (grouped nodes edges targets).edges = edges.mergeSort fun a b => a.1 ≤ b.1 := by
  rw [edges_eq, nodeCount_grouped, ← flatMap_filter_eq_mergeSort sources]
  refine List.flatMap_congr fun v member => ?_
  have small := List.mem_range.mp member
  rw [rowEdges, row_grouped room filled small, targetsFrom, List.map_map]
  refine (List.map_congr_left fun edge from_ => ?_).trans (List.map_id _)
  have source := decide_eq_true_eq.mp (List.mem_filter.mp from_).2
  have same : Int64.ofNat v = edge.1 := by
    have word := edge.1.toInt_lt
    exact Int64.toInt_inj.mp ((Int64.toInt_ofNat_of_lt (by omega)).trans source.symm)
  rw [Function.comp_apply, same]
  rfl

theorem sources_of_joins (joins : ∀ edge ∈ edges, Joins nodes edge) :
    ∀ edge ∈ edges, IsNode nodes edge.1 := fun edge member => (joins edge member).1

include room filled in
theorem new_grouped (joins : ∀ edge ∈ edges, Joins nodes edge) :
    new (grouped nodes edges targets).offsets targets = .ok (grouped nodes edges targets) := by
  have divides := divides_grouped (sources_of_joins joins) room filled
  refine new_eq_ok_iff.mpr ⟨checkTopology_eq_ok_iff.mpr ⟨divides, ?_⟩, rfl⟩
  intro target member
  change target ∈ (grouped nodes edges targets).targets at member
  rw [← divides.flatMap_row_nodeCount, nodeCount_grouped, List.mem_flatMap] at member
  obtain ⟨v, small, member⟩ := member
  rw [row_grouped room filled (List.mem_range.mp small)] at member
  obtain ⟨edge, listed, rfl⟩ := List.mem_map.mp member
  change IsNode (grouped nodes edges targets).nodeCount edge.2
  rw [nodeCount_grouped]
  exact (joins edge (List.mem_filter.mp listed).1).2

end Grouped

theorem Cells.toList_eq {cells : Array Int64} {count : Nat} {value : Nat → Nat}
    (held : Cells cells count value) :
    cells.toList = (List.range count).map fun v => Int64.ofNat (value v) := by
  apply List.ext_getElem?
  intro v
  by_cases inside : v < count
  · rw [Array.getElem?_toList, held.holds v inside, List.getElem?_map, List.getElem?_range inside]
    rfl
  · rw [List.getElem?_eq_none, List.getElem?_eq_none]
    · rw [List.length_map, List.length_range]
      exact Nat.le_of_not_lt inside
    · rw [Array.length_toList, held.size]
      exact Nat.le_of_not_lt inside

/-- What the loops leave behind when each of their accesses lies in an array: the numbers of edges, the
offsets, the places to begin with and the targets in place. -/
structure Loops (nodes : Nat) (edges : List (Int64 × Int64)) (counted offsets next : Array Int64)
    (placed : Placement) : Prop where
  counting : edges.foldlM (countEdge nodes) (Array.replicate (nodes + 1) 0) = .ok counted
  summing : (List.range' 1 (counted.size - 1)).foldlM sumAt counted = .ok offsets
  copying : firstCells offsets nodes = .ok next
  placing : edges.foldlM Placement.add ⟨next, Array.replicate edges.length 0⟩ = .ok placed

theorem ofEdges_eq_ok_iff {g : Graph} :
    ofEdges nodes edges = .ok g ↔ ∃ counted offsets next placed,
      Loops nodes edges counted offsets next placed ∧
        new offsets.toList placed.targets.toList = .ok g := by
  simp only [ofEdges, bind_eq_ok_iff]
  constructor
  · rintro ⟨counted, counting, offsets, summing, next, copying, placed, placing, made⟩
    exact ⟨counted, offsets, next, placed, ⟨counting, summing, copying, placing⟩, made⟩
  · rintro ⟨counted, offsets, next, placed, loops, made⟩
    exact ⟨counted, loops.counting, offsets, loops.summing, next, loops.copying, placed,
      loops.placing, made⟩

/-- Between nodes, all accesses of the loops lie in their arrays. -/
theorem exists_loops (joins : ∀ edge ∈ edges, Joins nodes edge)
    (room : edges.length ≤ Int64.maxValue.toInt) :
    ∃ counted offsets next placed, Loops nodes edges counted offsets next placed ∧
      Cells offsets (nodes + 1) (countBelow edges) ∧ Filled edges placed.targets.toList := by
  have sources := sources_of_joins joins
  obtain ⟨counted, counting, degrees⟩ := exists_foldlM_countEdge joins
  obtain ⟨offsets, summing, summed⟩ := exists_foldlM_sumAt sources (Nat.le_refl nodes) degrees
  have sums : Cells offsets (nodes + 1) (countBelow edges) := summed.congr fun v small =>
    if_pos (Nat.le_of_lt_succ small)
  obtain ⟨next, copying, begins⟩ := sums.exists_firstCells
  obtain ⟨placed, placing, put⟩ :=
    exists_foldlM_add (Placed.nil begins) room sources (List.append_nil edges).symm
  rw [← Nat.add_sub_cancel (n := nodes) (m := 1), ← degrees.size] at summing
  exact ⟨counted, offsets, next, placed, ⟨counting, summing, copying, placing⟩, sums, put.toFilled⟩

theorem joins_of_counting {cells counted : Array Int64}
    (counting : edges.foldlM (countEdge nodes) cells = .ok counted) :
    ∀ edge ∈ edges, Joins nodes edge := by
  induction edges generalizing cells with
  | nil => exact nofun
  | cons edge rest ih =>
      rw [List.foldlM_cons, bind_eq_ok_iff] at counting
      obtain ⟨middle, here, later⟩ := counting
      refine List.forall_mem_cons.mpr ⟨joins_iff.mpr (Bool.eq_false_of_not_eq_true ?_), ih later⟩
      intro outside
      rw [countEdge, if_pos outside] at here
      cases here

/-- Edges between nodes make the graph of their rows, which passes all checks. -/
theorem Loops.new_eq {counted offsets next : Array Int64} {placed : Placement}
    (loops : Loops nodes edges counted offsets next placed)
    (room : edges.length ≤ Int64.maxValue.toInt) :
    Filled edges placed.targets.toList ∧
      new offsets.toList placed.targets.toList =
        .ok (grouped nodes edges placed.targets.toList) := by
  have joins := joins_of_counting loops.counting
  obtain ⟨_, _, _, _, same, sums, filled⟩ := exists_loops joins room
  obtain rfl := Except.ok.inj (loops.counting.symm.trans same.counting)
  obtain rfl := Except.ok.inj (loops.summing.symm.trans same.summing)
  obtain rfl := Except.ok.inj (loops.copying.symm.trans same.copying)
  obtain rfl := Except.ok.inj (loops.placing.symm.trans same.placing)
  refine ⟨filled, ?_⟩
  rw [sums.toList_eq]
  exact new_grouped room filled joins

theorem exists_ofEdges_eq_grouped (joins : ∀ edge ∈ edges, Joins nodes edge)
    (room : edges.length ≤ Int64.maxValue.toInt) :
    ∃ targets, Filled edges targets ∧ ofEdges nodes edges = .ok (grouped nodes edges targets) := by
  obtain ⟨_, _, _, _, loops, _, filled⟩ := exists_loops joins room
  exact ⟨_, filled, ofEdges_eq_ok_iff.mpr ⟨_, _, _, _, loops, (loops.new_eq room).2⟩⟩

theorem ofEdges_of_outside {front back : List (Int64 × Int64)} {edge : Int64 × Int64}
    (before : ∀ edge ∈ front, Joins nodes edge) (outside : ¬Joins nodes edge) :
    ofEdges nodes (front ++ edge :: back) = .error (.edgeOutside edge.1 edge.2 nodes) := by
  obtain ⟨middle, counting, _⟩ := exists_foldlM_countEdge before
  have refused : countEdge nodes middle edge = .error (.edgeOutside edge.1 edge.2 nodes) :=
    if_pos (Bool.eq_true_of_not_eq_false (mt joins_iff.mpr outside))
  refine bind_eq_error_iff.mpr (.inl ?_)
  rw [List.foldlM_append, counting]
  change List.foldlM (countEdge nodes) middle (edge :: back) = _
  rw [List.foldlM_cons, refused]
  rfl

theorem exists_outside (fails : ¬∀ edge ∈ edges, Joins nodes edge) :
    ∃ front edge back, edges = front ++ edge :: back ∧
      (∀ earlier ∈ front, Joins nodes earlier) ∧ ¬Joins nodes edge := by
  induction edges with
  | nil => exact absurd nofun fails
  | cons edge rest ih =>
      by_cases here : Joins nodes edge
      · have later : ¬∀ edge ∈ rest, Joins nodes edge := fun later =>
          fails (List.forall_mem_cons.mpr ⟨here, later⟩)
        obtain ⟨front, first, back, rfl, before, outside⟩ := ih later
        exact ⟨edge :: front, first, back, rfl, List.forall_mem_cons.mpr ⟨here, before⟩, outside⟩
      · exact ⟨[], edge, rest, rfl, nofun, here⟩

/-- A list of edges makes a graph exactly if all of them join nodes, and otherwise the first one that
does not is refused: this is the only failure, so no access lies outside of an array, and what the loops
leave behind passes the checks on graphs. The graph has the edges grouped by their sources, in the order
of the list. The number of edges is one of a list in memory, so that offsets are words. -/
theorem ofEdges_groups {nodes : Nat} {edges : List (Int64 × Int64)}
    (room : edges.length ≤ Int64.maxValue.toInt) :
    ((∃ g, ofEdges nodes edges = .ok g) ↔ ∀ edge ∈ edges, Joins nodes edge) ∧
    (∀ fault, ofEdges nodes edges = .error fault ↔ ∃ front edge back, edges = front ++ edge :: back ∧
      (∀ earlier ∈ front, Joins nodes earlier) ∧ ¬Joins nodes edge ∧
      fault = .edgeOutside edge.1 edge.2 nodes) ∧
    (∀ g, ofEdges nodes edges = .ok g →
      g.nodeCount = nodes ∧ g.edgeCount = edges.length ∧
      (∀ v < nodes, g.neighbors? v = some (targetsFrom edges v)) ∧
      g.edges = edges.mergeSort fun a b => a.1 ≤ b.1) ∧
    (∀ place size, ofEdges nodes edges ≠ .error (.outOfBounds place size)) ∧
    (∀ counted offsets next placed, Loops nodes edges counted offsets next placed →
      ∃ g, new offsets.toList placed.targets.toList = .ok g) := by
  have made_iff : (∃ g, ofEdges nodes edges = .ok g) ↔ ∀ edge ∈ edges, Joins nodes edge := by
    constructor
    · rintro ⟨g, made⟩
      obtain ⟨_, _, _, _, loops, _⟩ := ofEdges_eq_ok_iff.mp made
      exact joins_of_counting loops.counting
    · intro joins
      obtain ⟨_, _, made⟩ := exists_ofEdges_eq_grouped joins room
      exact ⟨_, made⟩
  have failed_iff : ∀ fault, ofEdges nodes edges = .error fault ↔
      ∃ front edge back, edges = front ++ edge :: back ∧ (∀ earlier ∈ front, Joins nodes earlier) ∧
        ¬Joins nodes edge ∧ fault = .edgeOutside edge.1 edge.2 nodes := by
    intro fault
    constructor
    · intro failed
      have fails : ¬∀ edge ∈ edges, Joins nodes edge := fun joins => by
        obtain ⟨g, made⟩ := made_iff.mpr joins
        exact nomatch failed.symm.trans made
      obtain ⟨front, edge, back, split, before, outside⟩ := exists_outside fails
      rw [split, ofEdges_of_outside before outside] at failed
      exact ⟨front, edge, back, split, before, outside, (Except.error.inj failed).symm⟩
    · rintro ⟨front, edge, back, rfl, before, outside, rfl⟩
      exact ofEdges_of_outside before outside
  refine ⟨made_iff, failed_iff, ?_, ?_, ?_⟩
  · intro g made
    have sources := sources_of_joins (made_iff.mp ⟨g, made⟩)
    obtain ⟨_, _, _, placed, loops, new⟩ := ofEdges_eq_ok_iff.mp made
    obtain ⟨filled, same⟩ := loops.new_eq room
    obtain rfl := Except.ok.inj (same.symm.trans new)
    refine ⟨nodeCount_grouped, filled.length, ?_, edges_grouped sources room filled⟩
    intro v small
    rw [neighbors?_eq, nodeCount_grouped, if_pos small, row_grouped room filled small]
  · intro place size failed
    obtain ⟨_, _, _, _, _, _, ⟨⟩⟩ := (failed_iff _).mp failed
  · intro _ _ _ _ loops
    exact ⟨_, (loops.new_eq room).2⟩

/-- Two edges of one source that are not next to each other, a node with no edges, and an edge that
leaves the nodes. -/
theorem ofEdges_groups_scattered :
    let edges : List (Int64 × Int64) := [(2, 0), (0, 1), (2, 2), (0, 0)]
    (∃ g, ofEdges 3 edges = .ok g ∧ g.neighbors? 2 = some [0, 2] ∧ g.neighbors? 1 = some [] ∧
      g.edges = edges.mergeSort fun a b => a.1 ≤ b.1) ∧
    ofEdges 2 edges = .error (.edgeOutside 2 0 2) := by
  intro edges
  have few : edges.length ≤ Int64.maxValue.toInt := by decide
  have joins : ∀ edge ∈ edges, Joins 3 edge := by
    simp only [edges, List.forall_mem_cons, joins_iff]
    exact ⟨rfl, rfl, rfl, rfl, nofun⟩
  have outside : ¬Joins 2 (2, 0) := fun joins => absurd joins.1.2 (by decide)
  have three := @ofEdges_groups 3 edges few
  have two := @ofEdges_groups 2 edges few
  obtain ⟨g, made⟩ := three.1.mpr joins
  obtain ⟨_, _, rows, sorted⟩ := three.2.2.1 g made
  exact ⟨⟨g, made, rows 2 (by decide), rows 1 (by decide), sorted⟩,
    (two.2.1 _).mpr ⟨[], (2, 0), _, rfl, nofun, outside, rfl⟩⟩

end GraphSnapshot.Graph
