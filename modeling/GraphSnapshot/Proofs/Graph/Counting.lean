import GraphSnapshot.Graph.OfEdges
import GraphSnapshot.Proofs.Graph.Rows
import Mathlib.Data.List.Induction
import Mathlib.Data.Nat.Cast.Order.Ring

/-! Counting. The cells for offsets come to hold the number of edges before each source, and while
targets are put in place, the next place of a source moves through its row: so every place is written
once, and no access lies outside of an array. -/
namespace GraphSnapshot.Graph

/-- The targets of the edges from a node, in the order of the edges. -/
def targetsFrom (edges : List (Int64 × Int64)) (node : Nat) : List Int64 :=
  (edges.filter fun edge => edge.1.toInt = (node : Int)).map Prod.snd

variable {nodes : Nat} {edges front back : List (Int64 × Int64)}

theorem targetsFrom_append (front back : List (Int64 × Int64)) (node : Nat) :
    targetsFrom (front ++ back) node = targetsFrom front node ++ targetsFrom back node := by
  rw [targetsFrom, List.filter_append, List.map_append]
  rfl

theorem targetsFrom_cons (edge : Int64 × Int64) (rest : List (Int64 × Int64)) (node : Nat) :
    targetsFrom (edge :: rest) node =
      if edge.1.toInt = node then edge.2 :: targetsFrom rest node else targetsFrom rest node := by
  rw [targetsFrom, List.filter_cons]
  split <;> simp_all [targetsFrom]

theorem countBelow_succ (edges : List (Int64 × Int64)) (node : Nat) :
    countBelow edges (node + 1) = countBelow edges node + (targetsFrom edges node).length := by
  induction edges with
  | nil => rfl
  | cons edge rest ih =>
      simp only [countBelow, List.countP_cons, decide_eq_true_eq] at ih ⊢
      rw [ih, targetsFrom_cons]
      by_cases here : edge.1.toInt = node
      · rw [if_pos (by omega), if_neg (by omega), if_pos here, List.length_cons]
        omega
      · by_cases below : edge.1.toInt < node
        · rw [if_pos (by omega), if_pos below, if_neg here]
          omega
        · rw [if_neg (by omega), if_neg below, if_neg here]
          omega

theorem countBelow_le (edges : List (Int64 × Int64)) {v w : Nat} (order : v ≤ w) :
    countBelow edges v ≤ countBelow edges w := by
  refine List.countP_mono_left fun edge _ below => ?_
  rw [decide_eq_true_eq] at below ⊢
  omega

theorem countBelow_le_length (edges : List (Int64 × Int64)) (node : Nat) :
    countBelow edges node ≤ edges.length := List.countP_le_length

def IsNode (nodes : Nat) (v : Int64) : Prop := 0 ≤ v.toInt ∧ v.toInt < nodes

theorem placeOf_of_nonneg {v : Int64} (nonneg : 0 ≤ v.toInt) : (placeOf v : Int) = v.toInt := by
  have small := v.toUInt64.toNat_lt
  have signed : v.toInt = (v.toUInt64.toNat : Int).bmod (2 ^ 64) := by
    rw [← Int64.toInt_toBitVec, BitVec.toInt_eq_toNat_bmod]
    rfl
  rw [placeOf]
  rw [signed, Int.bmod_def] at nonneg ⊢
  split at nonneg <;> split <;> omega

theorem placeOf_ofNat {n : Nat} (small : n ≤ Int64.maxValue.toInt) : placeOf (.ofNat n) = n := by
  have largest : Int64.maxValue.toInt = 9223372036854775807 := by decide
  rw [placeOf, Int64.toUInt64_ofNat', UInt64.toNat_ofNat_of_lt' (by rw [UInt64.size]; omega)]

theorem IsNode.placeOf_eq {v : Int64} (node : IsNode nodes v) : (placeOf v : Int) = v.toInt :=
  placeOf_of_nonneg node.1

theorem IsNode.placeOf_lt {v : Int64} (node : IsNode nodes v) : placeOf v < nodes := by
  have same := node.placeOf_eq
  have small := node.2
  omega

def Joins (nodes : Nat) (edge : Int64 × Int64) : Prop := IsNode nodes edge.1 ∧ IsNode nodes edge.2

theorem joins_iff {edge : Int64 × Int64} :
    Joins nodes edge ↔ (!(counts edge.1 nodes && counts edge.2 nodes)) = false := by
  rw [Bool.not_eq_false', Bool.and_eq_true, counts_iff, counts_iff]
  rfl

theorem countBelow_zero (sources : ∀ edge ∈ edges, IsNode nodes edge.1) : countBelow edges 0 = 0 := by
  refine List.countP_eq_zero.mpr fun edge member => ?_
  rw [decide_eq_true_eq]
  exact Int.not_lt.mpr (sources edge member).1

theorem countBelow_nodes (sources : ∀ edge ∈ edges, IsNode nodes edge.1) :
    countBelow edges nodes = edges.length := by
  refine List.countP_eq_length.mpr fun edge member => ?_
  rw [decide_eq_true_eq]
  exact (sources edge member).2

/-- So many cells, which hold the values of a function as words. -/
structure Cells (cells : Array Int64) (count : Nat) (value : Nat → Nat) : Prop where
  size : cells.size = count
  holds : ∀ v < count, cells[v]? = some (.ofNat (value v))

namespace Cells
variable {cells : Array Int64} {count : Nat} {value other : Nat → Nat}

theorem cellAt_eq (held : Cells cells count value) {v : Nat} (inside : v < count) :
    cellAt cells v = .ok (.ofNat (value v)) := by
  rw [cellAt, held.holds v inside]

theorem exists_setCell (held : Cells cells count value) {v : Nat} (inside : v < count) (n : Nat) :
    ∃ after, setCell cells v (.ofNat n) = .ok after ∧
      Cells after count (fun w => if w = v then n else value w) := by
  have fits : v < cells.size := held.size ▸ inside
  refine ⟨_, if_pos fits, ?_, ?_⟩
  · rw [Array.size_setIfInBounds, held.size]
  · intro w small
    by_cases here : w = v
    · rw [here, Array.getElem?_setIfInBounds_self_of_lt fits, if_pos rfl]
    · rw [Array.getElem?_setIfInBounds_ne (Ne.symm here), held.holds w small, if_neg here]

theorem congr (held : Cells cells count value) (same : ∀ v < count, value v = other v) :
    Cells cells count other := by
  refine ⟨held.size, ?_⟩
  intro v small
  rw [held.holds v small, same v small]

theorem replicate (count : Nat) : Cells (Array.replicate count 0) count fun _ => 0 := by
  refine ⟨Array.size_replicate, ?_⟩
  intro v small
  rw [Array.getElem?_replicate, if_pos small]
  rfl

theorem exists_firstCells (held : Cells cells (count + 1) value) :
    ∃ after, firstCells cells count = .ok after ∧ Cells after count value := by
  have fits : count ≤ cells.size := by
    rw [held.size]
    exact Nat.le_succ count
  refine ⟨_, if_pos fits, ?_, ?_⟩
  · rw [Array.size_extract]
    omega
  · intro v small
    rw [Array.getElem?_extract, if_pos (by omega), Nat.zero_add]
    exact held.holds v (Nat.lt_succ_of_lt small)

end Cells

/-- The degrees of the nodes, each in the place behind its node. -/
def degreeBefore (edges : List (Int64 × Int64)) : Nat → Nat
  | 0 => 0
  | v + 1 => (targetsFrom edges v).length

theorem exists_countEdge {cells : Array Int64} {edge : Int64 × Int64} (joins : Joins nodes edge)
    (held : Cells cells (nodes + 1) (degreeBefore front)) :
    ∃ after, countEdge nodes cells edge = .ok after ∧
      Cells after (nodes + 1) (degreeBefore (front ++ [edge])) := by
  have inside : placeOf edge.1 + 1 < nodes + 1 := Nat.succ_lt_succ joins.1.placeOf_lt
  obtain ⟨after, set, counted⟩ :=
    held.exists_setCell inside (degreeBefore front (placeOf edge.1 + 1) + 1)
  refine ⟨after, ?_, counted.congr ?_⟩
  · rw [Int64.ofNat_add] at set
    rw [countEdge, joins_iff.mp joins, if_neg Bool.false_ne_true]
    exact bind_eq_ok_iff.mpr ⟨_, held.cellAt_eq inside, set⟩
  · intro v _
    have same := joins.1.placeOf_eq
    cases v with
    | zero => rfl
    | succ v =>
        simp only [degreeBefore, targetsFrom_append, targetsFrom_cons, List.length_append,
          Nat.add_right_cancel_iff]
        by_cases here : edge.1.toInt = v
        · rw [if_pos (by omega), if_pos here, show placeOf edge.1 = v by omega]
          rfl
        · rw [if_neg (by omega), if_neg here]
          rfl

/-- While edges are counted, each is counted in a cell that there is. -/
theorem exists_foldlM_countEdge (joins : ∀ edge ∈ front, Joins nodes edge) :
    ∃ counted, front.foldlM (countEdge nodes) (Array.replicate (nodes + 1) 0) = .ok counted ∧
      Cells counted (nodes + 1) (degreeBefore front) := by
  induction front using List.reverseRecOn with
  | nil =>
      refine ⟨_, rfl, (Cells.replicate _).congr fun v _ => ?_⟩
      cases v with
      | zero => rfl
      | succ v => rfl
  | append_singleton front edge ih =>
      obtain ⟨earlier, last⟩ := List.forall_mem_append.mp joins
      obtain ⟨middle, made, held⟩ := ih earlier
      obtain ⟨after, counted, cells⟩ :=
        exists_countEdge (List.forall_mem_singleton.mp last) held
      refine ⟨after, ?_, cells⟩
      rw [List.foldlM_append, made]
      exact (List.foldlM_cons ..).trans (bind_eq_ok_iff.mpr ⟨after, counted, rfl⟩)

/-- The first cells hold sums, the others what is still to be added. -/
def summedUpTo (edges : List (Int64 × Int64)) (done v : Nat) : Nat :=
  if v ≤ done then countBelow edges v else degreeBefore edges v

theorem exists_sumAt {cells : Array Int64} {done : Nat} (inside : done < nodes)
    (held : Cells cells (nodes + 1) (summedUpTo edges done)) :
    ∃ after, sumAt cells (done + 1) = .ok after ∧
      Cells after (nodes + 1) (summedUpTo edges (done + 1)) := by
  have small : done < nodes + 1 := Nat.lt_succ_of_lt inside
  obtain ⟨after, set, summed⟩ :=
    held.exists_setCell (Nat.succ_lt_succ inside) (countBelow edges (done + 1))
  refine ⟨after, ?_, summed.congr ?_⟩
  · have before : summedUpTo edges done done = countBelow edges done := if_pos (Nat.le_refl _)
    have added : summedUpTo edges done (done + 1) = (targetsFrom edges done).length :=
      if_neg (Nat.not_succ_le_self done)
    rw [countBelow_succ, Nat.add_comm, Int64.ofNat_add] at set
    rw [sumAt, Nat.add_sub_cancel, held.cellAt_eq small, held.cellAt_eq (Nat.succ_lt_succ inside),
      before, added]
    exact set
  · intro v _
    simp only [summedUpTo]
    by_cases here : v = done + 1
    · rw [if_pos here, if_pos (by omega), here]
    · rw [if_neg here]
      by_cases below : v ≤ done
      · rw [if_pos below, if_pos (by omega)]
      · rw [if_neg below, if_neg (by omega)]

/-- While sums are taken, each place and the one before it are in the array. -/
theorem exists_foldlM_sumAt {counted : Array Int64} {count : Nat}
    (sources : ∀ edge ∈ edges, IsNode nodes edge.1) (inside : count ≤ nodes)
    (held : Cells counted (nodes + 1) (degreeBefore edges)) :
    ∃ offsets, (List.range' 1 count).foldlM sumAt counted = .ok offsets ∧
      Cells offsets (nodes + 1) (summedUpTo edges count) := by
  induction count with
  | zero =>
      refine ⟨counted, rfl, held.congr fun v _ => ?_⟩
      cases v with
      | zero => exact (countBelow_zero sources).symm
      | succ v => rfl
  | succ count ih =>
      obtain ⟨middle, made, summed⟩ := ih (Nat.le_of_succ_le inside)
      obtain ⟨after, set, cells⟩ := exists_sumAt inside summed
      refine ⟨after, ?_, cells⟩
      rw [List.range'_1_concat, List.foldlM_append, made, Nat.add_comm]
      exact (List.foldlM_cons ..).trans (bind_eq_ok_iff.mpr ⟨after, set, rfl⟩)

/-- The next place of a node is the one behind those of its targets that are in place, which stand in
its row in order. -/
structure Placed (nodes : Nat) (edges front : List (Int64 × Int64)) (p : Placement) : Prop where
  size : p.targets.size = edges.length
  next : Cells p.next nodes fun v => countBelow edges v + (targetsFrom front v).length
  filled : ∀ (v j : Nat) target, (targetsFrom front v)[j]? = some target →
    p.targets[countBelow edges v + j]? = some target

theorem Placed.nil {next : Array Int64} (held : Cells next nodes (countBelow edges)) :
    Placed nodes edges [] ⟨next, Array.replicate edges.length 0⟩ :=
  ⟨Array.size_replicate, held.congr fun _ _ => rfl, nofun⟩

theorem countBelow_add_le (split : edges = front ++ back) (node : Nat) :
    countBelow edges node + (targetsFrom front node).length ≤ countBelow edges (node + 1) := by
  rw [countBelow_succ, split, targetsFrom_append, List.length_append]
  omega

theorem countBelow_add_lt {edge : Int64 × Int64} (split : edges = front ++ edge :: back) {node : Nat}
    (source : edge.1.toInt = node) :
    countBelow edges node + (targetsFrom front node).length < countBelow edges (node + 1) := by
  rw [countBelow_succ, split, targetsFrom_append, targetsFrom_cons, if_pos source, List.length_append,
    List.length_cons]
  omega

theorem place_ne {edge : Int64 × Int64} (split : edges = front ++ edge :: back) {node other j : Nat}
    (source : edge.1.toInt = node) (apart : node ≠ other)
    (taken : j < (targetsFrom front other).length) :
    countBelow edges node + (targetsFrom front node).length ≠ countBelow edges other + j := by
  have next := countBelow_add_lt split source
  have row := countBelow_add_le split other
  rcases Nat.lt_or_gt_of_ne apart with before | behind
  · have := countBelow_le edges (v := node + 1) before
    omega
  · have := countBelow_le edges (v := other + 1) behind
    omega

theorem Placement.add_eq_ok {p : Placement} {edge : Int64 × Int64} {place : Int64}
    {next : Array Int64} (found : cellAt p.next (placeOf edge.1) = .ok place)
    (fits : placeOf place < p.targets.size)
    (moved : setCell p.next (placeOf edge.1) (place + 1) = .ok next) :
    p.add edge = .ok ⟨next, p.targets.setIfInBounds (placeOf place) edge.2⟩ := by
  refine bind_eq_ok_iff.mpr ⟨place, found, bind_eq_ok_iff.mpr ⟨_, if_pos fits, ?_⟩⟩
  exact bind_eq_ok_iff.mpr ⟨next, moved, rfl⟩

theorem targetsFrom_concat {edge : Int64 × Int64} {node : Nat} (source : edge.1.toInt = node)
    (front : List (Int64 × Int64)) (v : Nat) :
    targetsFrom (front ++ [edge]) v =
      if v = node then targetsFrom front v ++ [edge.2] else targetsFrom front v := by
  rw [targetsFrom_append, targetsFrom_cons]
  by_cases here : v = node
  · rw [if_pos here, if_pos (by omega)]
    rfl
  · rw [if_neg here, if_neg (by omega)]
    exact List.append_nil _

/-- The target goes behind the others of its row, and all others stay in place. -/
theorem Placed.exists_add {p : Placement} (placed : Placed nodes edges front p)
    (room : edges.length ≤ Int64.maxValue.toInt) {edge : Int64 × Int64}
    (split : edges = front ++ edge :: back) (source : IsNode nodes edge.1) :
    ∃ after, p.add edge = .ok after ∧ Placed nodes edges (front ++ [edge]) after := by
  have same := source.placeOf_eq.symm
  obtain ⟨next, moved, held⟩ := placed.next.exists_setCell source.placeOf_lt
    (countBelow edges (placeOf edge.1) + (targetsFrom front (placeOf edge.1)).length + 1)
  have row := countBelow_add_lt split same
  have total := countBelow_le_length edges (placeOf edge.1 + 1)
  have word := placeOf_ofNat
    (n := countBelow edges (placeOf edge.1) + (targetsFrom front (placeOf edge.1)).length) (by omega)
  have fits : countBelow edges (placeOf edge.1) + (targetsFrom front (placeOf edge.1)).length <
      p.targets.size := by
    rw [placed.size]
    omega
  rw [Int64.ofNat_add] at moved
  have added := Placement.add_eq_ok (placed.next.cellAt_eq source.placeOf_lt) (word.symm ▸ fits) moved
  rw [word] at added
  refine ⟨_, added, ?_, held.congr ?_, ?_⟩
  · exact Array.size_setIfInBounds.trans placed.size
  · intro v _
    rw [targetsFrom_concat same]
    by_cases here : v = placeOf edge.1
    · rw [if_pos here, if_pos here, List.length_append, here]
      rfl
    · rw [if_neg here, if_neg here]
  · intro v j target member
    rw [targetsFrom_concat same] at member
    by_cases here : v = placeOf edge.1
    · rw [if_pos here] at member
      rw [← here]
      by_cases old : j < (targetsFrom front v).length
      · rw [List.getElem?_append_left old] at member
        rw [Array.getElem?_setIfInBounds_ne (by omega)]
        exact placed.filled v j target member
      · -- The only new target of the row is the one behind the others.
        rw [List.getElem?_append_right (Nat.le_of_not_lt old)] at member
        obtain ⟨last, rfl⟩ := List.getElem?_eq_some_iff.mp member
        rw [List.length_singleton] at last
        obtain rfl : j = (targetsFrom front v).length := by omega
        rw [Array.getElem?_setIfInBounds_self_of_lt (here ▸ fits), List.getElem_singleton]
    · rw [if_neg here] at member
      have taken := (List.getElem?_eq_some_iff.mp member).1
      rw [Array.getElem?_setIfInBounds_ne (place_ne split same (Ne.symm here) taken)]
      exact placed.filled v j target member

/-- Targets stand in the rows of their sources, in the order of the edges. -/
structure Filled (edges : List (Int64 × Int64)) (targets : List Int64) : Prop where
  length : targets.length = edges.length
  rows : ∀ (v j : Nat) target, (targetsFrom edges v)[j]? = some target →
    targets[countBelow edges v + j]? = some target

theorem Placed.toFilled {p : Placement} (placed : Placed nodes edges edges p) :
    Filled edges p.targets.toList := by
  refine ⟨Array.length_toList.trans placed.size, fun v j target member => ?_⟩
  rw [Array.getElem?_toList]
  exact placed.filled v j target member

theorem exists_foldlM_add {start : Placement} (placed : Placed nodes edges [] start)
    (room : edges.length ≤ Int64.maxValue.toInt)
    (sources : ∀ edge ∈ edges, IsNode nodes edge.1) (split : edges = front ++ back) :
    ∃ p, front.foldlM Placement.add start = .ok p ∧ Placed nodes edges front p := by
  induction front using List.reverseRecOn generalizing back with
  | nil => exact ⟨start, rfl, placed⟩
  | append_singleton front edge ih =>
      rw [List.append_assoc, List.singleton_append] at split
      have source := sources edge (split ▸ List.mem_append_right front List.mem_cons_self)
      obtain ⟨middle, made, here⟩ := ih split
      obtain ⟨after, added, there⟩ := here.exists_add room split source
      refine ⟨after, ?_, there⟩
      rw [List.foldlM_append, made]
      exact (List.foldlM_cons ..).trans (bind_eq_ok_iff.mpr ⟨after, added, rfl⟩)

end GraphSnapshot.Graph
