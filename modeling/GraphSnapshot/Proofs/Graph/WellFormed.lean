import GraphSnapshot.Graph.OfEdges
import GraphSnapshot.Proofs.Graph.Tables
import GraphSnapshot.Proofs.Outcome
import Mathlib.Data.List.Dedup
import Mathlib.Data.List.Perm.Subperm

/-! Well-formed graphs. Checking a graph succeeds exactly if the graph is well-formed, one check for
each part of what that means. -/
namespace GraphSnapshot

structure TypeIds.Numbered (ids : TypeIds) : Prop where
  one_name : ∀ a ∈ ids.pairs, ∀ b ∈ ids.pairs, a.2 = b.2 → a.1 = b.1
  numbers : ∀ n : Int, (∃ pair ∈ ids.pairs, pair.2.toInt = n) ↔ 0 ≤ n ∧ n < ids.size

def Table.HasRows (t : Table) (rows : Nat) : Prop :=
  ∀ column ∈ t.columns, ∃ first others, column.2.shape.dims = first :: others ∧ first.toNat = rows

namespace Graph

/-- Offsets start at zero, never decrease, and end at the total. -/
structure Divides (offsets : List Int64) (total : Nat) : Prop where
  start : offsets.head? = some 0
  ascending : offsets.Pairwise (· ≤ ·)
  finish : offsets.getLast?.map Int64.toInt = some (total : Int)

/-- Each field is right, alone and beside the others. -/
structure WellFormed (g : Graph) : Prop where
  offsets : Divides g.offsets g.targets.length
  targets : ∀ target ∈ g.targets, 0 ≤ target.toInt ∧ target.toInt < g.nodeCount
  nodeTypeIds : ∀ ids, g.nodeTypeIds = some ids → ids.Numbered
  edgeTypeIds : ∀ ids, g.edgeTypeIds = some ids → ids.Numbered
  nodeRanges : ∀ ranges, g.nodeRanges = some ranges → Divides ranges g.nodeCount ∧
    ∀ ids, g.nodeTypeIds = some ids → ranges.length = ids.size + 1
  edgeTypes : ∀ types, g.edgeTypes = some types → types.length = g.edgeCount ∧
    ∀ ids, g.edgeTypeIds = some ids → ∀ type ∈ types, type.toNat < ids.size
  nodeTable : ∀ table, g.nodeTable = some table → table.HasRows g.nodeCount
  edgeTable : ∀ table, g.edgeTable = some table → table.HasRows g.edgeCount

theorem counts_iff {v : Int64} {count : Nat} :
    counts v count = true ↔ 0 ≤ v.toInt ∧ v.toInt < count := by
  rw [counts, Bool.and_eq_true, decide_eq_true_iff, decide_eq_true_iff]

theorem decrease?_eq_none_iff (index : Nat) {offsets : List Int64} :
    decrease? index offsets = none ↔ offsets.Pairwise (· ≤ ·) := by
  induction offsets generalizing index with
  | nil => exact ⟨fun _ => .nil, fun _ => rfl⟩
  | cons before rest ih =>
      cases rest with
      | nil => exact ⟨fun _ => List.pairwise_singleton _ _, fun _ => rfl⟩
      | cons after rest =>
          rw [decrease?]
          split
          · next less =>
            refine ⟨nofun, fun ascending => ?_⟩
            have notLess := List.rel_of_pairwise_cons ascending List.mem_cons_self
            exact absurd less (Int64.not_lt.mpr notLess)
          · next notLess =>
            rw [ih]
            refine ⟨fun ascending => ?_, List.Pairwise.of_cons⟩
            -- What comes later is no smaller than the offset in between.
            have first := Int64.not_lt.mp notLess
            refine List.pairwise_cons.mpr ⟨?_, ascending⟩
            intro later member
            rcases List.mem_cons.mp member with rfl | member
            · exact first
            · exact Int64.le_trans first (List.rel_of_pairwise_cons ascending member)

theorem checkOffsets_eq_ok_iff {field : Field} {offsets : List Int64} {total : Nat} :
    checkOffsets field offsets total = .ok () ↔ Divides offsets total := by
  cases offsets with
  | nil => exact ⟨nofun, fun h => nomatch h.start⟩
  | cons first rest =>
      have last : (first :: rest).getLast?.map Int64.toInt = some (rest.getLastD first).toInt := by
        rw [List.getLast?_cons, List.getLastD_eq_getLast?, Option.map_some]
      have divides_iff : Divides (first :: rest) total ↔
          first = 0 ∧ (first :: rest).Pairwise (· ≤ ·) ∧ (rest.getLastD first).toInt = total := by
        constructor
        · intro ⟨start, ascending, finish⟩
          exact ⟨Option.some.inj start, ascending, Option.some.inj (last.symm.trans finish)⟩
        · intro ⟨start, ascending, finish⟩
          exact ⟨congrArg some start, ascending, last.trans (congrArg some finish)⟩
      rw [divides_iff, checkOffsets, ← decrease?_eq_none_iff 1]
      split
      · next nonzero => exact ⟨nofun, fun ⟨zero, _⟩ => absurd zero nonzero⟩
      · next zero =>
        rw [not_ne_iff] at zero
        cases decrease? 1 (first :: rest) with
        | some found => exact ⟨nofun, fun ⟨_, absent, _⟩ => nomatch absent⟩
        | none =>
            refine condition_eq_ok_iff.trans ⟨fun ends => ⟨zero, rfl, ends⟩, ?_⟩
            intro ⟨_, _, ends⟩
            exact ends

theorem checkTopology_eq_ok_iff {g : Graph} :
    g.checkTopology = .ok () ↔ Divides g.offsets g.targets.length ∧
      ∀ target ∈ g.targets, 0 ≤ target.toInt ∧ target.toInt < g.nodeCount := by
  have inside_iff : g.targets.zipIdx.find? (fun entry => !counts entry.1 g.nodeCount) = none ↔
      ∀ target ∈ g.targets, 0 ≤ target.toInt ∧ target.toInt < g.nodeCount := by
    rw [List.find?_eq_none, ← List.zipIdx_map_fst 0 g.targets, List.forall_mem_map]
    simp only [Bool.not_eq_true', Bool.not_eq_false, counts_iff, List.zipIdx_map_fst]
  rw [checkTopology, checks_eq_ok_iff, checkOffsets_eq_ok_iff]
  apply and_congr_right
  intro _
  dsimp only
  split
  · next target index found =>
    constructor
    · intro accepted
      exact absurd accepted throw_ne_ok
    · intro inside
      exact absurd (found.symm.trans (inside_iff.mpr inside)) (Option.some_ne_none _)
  · next absent => exact ⟨fun _ => inside_iff.mp absent, fun _ => rfl⟩

theorem checkIds_eq_ok_iff {field : Field} {count : Nat} {seen : List Int64}
    {pairs : List (String × Int64)} :
    checkIds field count seen pairs = .ok () ↔ (∀ pair ∈ pairs, counts pair.2 count = true) ∧
      (pairs.map Prod.snd).Nodup ∧ ∀ pair ∈ pairs, pair.2 ∉ seen := by
  induction pairs generalizing seen with
  | nil => exact ⟨fun _ => ⟨nofun, .nil, nofun⟩, fun _ => rfl⟩
  | cons pair rest ih =>
      obtain ⟨name, id⟩ := pair
      rw [checkIds, List.forall_mem_cons, List.forall_mem_cons, List.map_cons, List.nodup_cons]
      split
      · next outside =>
        refine ⟨nofun, fun ⟨⟨inside, _⟩, _⟩ => ?_⟩
        rw [inside] at outside
        cases outside
      · next inside =>
        split
        · next repeated => exact ⟨nofun, fun ⟨_, _, new, _⟩ => absurd repeated new⟩
        · next new =>
          rw [Bool.not_eq_true', Bool.not_eq_false] at inside
          -- The id has been seen exactly if it comes again later.
          have apart_iff : (∀ pair ∈ rest, pair.2 ∉ id :: seen) ↔
              id ∉ rest.map Prod.snd ∧ ∀ pair ∈ rest, pair.2 ∉ seen := by
            rw [List.mem_map]
            constructor
            · intro apart
              refine ⟨?_, fun pair member old => apart pair member (List.mem_cons_of_mem _ old)⟩
              rintro ⟨pair, member, same⟩
              exact apart pair member (same ▸ List.mem_cons_self)
            · rintro ⟨later, apart⟩ pair member old
              rcases List.mem_cons.mp old with same | old
              · exact later ⟨pair, member, same⟩
              · exact apart pair member old
          rw [ih, apart_iff]
          constructor
          · intro ⟨counted, distinct, later, apart⟩
            exact ⟨⟨inside, counted⟩, ⟨later, distinct⟩, new, apart⟩
          · intro ⟨⟨_, counted⟩, ⟨later, distinct⟩, _, apart⟩
            exact ⟨counted, distinct, later, apart⟩

/-- As many different ids as names, each below the number of names, are all of these numbers. -/
theorem exists_id_of_distinct {ids : TypeIds}
    (counted : ∀ pair ∈ ids.pairs, counts pair.2 ids.size = true)
    (distinct : (ids.pairs.map Prod.snd).Nodup) {n : Nat} (small : n < ids.size) :
    ∃ pair ∈ ids.pairs, pair.2.toInt = n := by
  have numbers : (ids.pairs.map fun pair => pair.2.toInt.toNat).Nodup := by
    have injective := List.inj_on_of_nodup_map distinct
    refine List.Nodup.map_on ?_ distinct.of_map
    intro a inside b inside' same
    obtain ⟨positive, _⟩ := counts_iff.mp (counted a inside)
    obtain ⟨positive', _⟩ := counts_iff.mp (counted b inside')
    exact injective inside inside' (Int64.toInt_inj.mp (by omega))
  have below : (ids.pairs.map fun pair => pair.2.toInt.toNat) ⊆ List.range ids.size := by
    intro m member
    obtain ⟨pair, inside, rfl⟩ := List.mem_map.mp member
    obtain ⟨positive, less⟩ := counts_iff.mp (counted pair inside)
    exact List.mem_range.mpr (by omega)
  have all := (numbers.subperm below).perm_of_length_le (by
    rw [List.length_range, List.length_map]
    exact Nat.le_refl _)
  obtain ⟨pair, inside, same⟩ := List.mem_map.mp (all.mem_iff.mpr (List.mem_range.mpr small))
  have := (counts_iff.mp (counted pair inside)).1
  exact ⟨pair, inside, by omega⟩

theorem checkTypeIds_eq_ok_iff {field : Field} {ids : TypeIds} :
    checkTypeIds field ids = .ok () ↔ ids.Numbered := by
  rw [checkTypeIds, checkIds_eq_ok_iff]
  constructor
  · intro ⟨counted, distinct, _⟩
    refine ⟨?_, ?_⟩
    · intro a inside b inside' same
      exact congrArg Prod.fst (List.inj_on_of_nodup_map distinct inside inside' same)
    · intro n
      constructor
      · rintro ⟨pair, inside, rfl⟩
        exact counts_iff.mp (counted pair inside)
      · intro ⟨positive, less⟩
        obtain ⟨m, rfl⟩ := Int.eq_ofNat_of_zero_le positive
        exact exists_id_of_distinct counted distinct (Int.ofNat_lt.mp less)
  · intro numbered
    refine ⟨?_, ?_, fun _ _ => List.not_mem_nil⟩
    · intro pair inside
      exact counts_iff.mpr ((numbered.numbers _).mp ⟨pair, inside, rfl⟩)
    · refine List.Nodup.map_on ?_ ids.distinct_pairs.of_map
      intro a inside b inside' same
      exact Prod.ext (numbered.one_name a inside b inside' same) same

theorem checkNodeRanges_eq_ok_iff {g : Graph} {ranges : List Int64} :
    g.checkNodeRanges ranges = .ok () ↔ Divides ranges g.nodeCount ∧
      ∀ ids, g.nodeTypeIds = some ids → ranges.length = ids.size + 1 := by
  rw [checkNodeRanges, checks_eq_ok_iff, checkOffsets_eq_ok_iff]
  apply and_congr_right
  intro _
  cases g.nodeTypeIds with
  | none => exact ⟨fun _ _ => nofun, fun _ => rfl⟩
  | some ids =>
      simp only [Option.some.injEq, forall_eq']
      split
      · next other => exact ⟨nofun, fun same => absurd same other⟩
      · next same => exact ⟨fun _ => not_ne_iff.mp same, fun _ => rfl⟩

theorem checkEdgeTypes_eq_ok_iff {g : Graph} {types : List UInt8} :
    g.checkEdgeTypes types = .ok () ↔ types.length = g.edgeCount ∧
      ∀ ids, g.edgeTypeIds = some ids → ∀ type ∈ types, type.toNat < ids.size := by
  rw [checkEdgeTypes]
  simp only [check_eq_ok_iff]
  rw [not_ne_iff]
  apply and_congr_right
  intro _
  cases g.edgeTypeIds with
  | none => exact ⟨fun _ _ => nofun, fun _ => rfl⟩
  | some ids =>
      have named_iff : types.find? (fun type => ids.size ≤ type.toNat) = none ↔
          ∀ type ∈ types, type.toNat < ids.size := by
        simp only [List.find?_eq_none, decide_eq_true_iff, Nat.not_le]
      simp only [Option.some.injEq, forall_eq']
      rw [← named_iff]
      split
      · next type found => exact ⟨nofun, fun absent => nomatch found.symm.trans absent⟩
      · next absent => exact ⟨fun _ => Option.eq_none_iff_forall_ne_some.mpr absent, fun _ => rfl⟩

theorem checkRows_eq_ok_iff {table : Table} {rows : Nat} {owner : Owner} :
    table.checkRows rows owner = .ok () ↔ table.HasRows rows := by
  have rows_iff (a : NumericArray) : a.rows?.map UInt64.toNat = some rows ↔
      ∃ first others, a.shape.dims = first :: others ∧ first.toNat = rows := by
    rw [NumericArray.rows?, Shape.dim?]
    cases a.shape.dims with
    | nil => exact ⟨nofun, nofun⟩
    | cons size rest =>
        constructor
        · intro same
          exact ⟨size, rest, rfl, Option.some.inj same⟩
        · rintro ⟨_, _, ⟨rfl, rfl⟩, same⟩
          exact congrArg some same
  rw [Table.checkRows, list_forM_eq_ok_iff]
  refine forall₂_congr fun column _ => ?_
  rw [condition_eq_ok_iff, rows_iff]

theorem validate_eq_ok_iff {g : Graph} : g.validate = .ok () ↔ g.WellFormed := by
  simp only [validate, checks_eq_ok_iff, option_forM_eq_ok_iff, checkTopology_eq_ok_iff,
    checkTypeIds_eq_ok_iff, checkNodeRanges_eq_ok_iff, checkEdgeTypes_eq_ok_iff,
    checkRows_eq_ok_iff]
  constructor
  · intro ⟨⟨offsets, targets⟩, nodeTypeIds, edgeTypeIds, nodeRanges, edgeTypes, nodeTable, edgeTable⟩
    exact ⟨offsets, targets, nodeTypeIds, edgeTypeIds, nodeRanges, edgeTypes, nodeTable, edgeTable⟩
  · intro well
    exact ⟨⟨well.offsets, well.targets⟩, well.nodeTypeIds, well.edgeTypeIds, well.nodeRanges,
      well.edgeTypes, well.nodeTable, well.edgeTable⟩

instance (g : Graph) : Decidable g.WellFormed := decidable_of_iff _ validate_eq_ok_iff

theorem wellFormed_bare_iff {offsets targets : List Int64} :
    (bare offsets targets).WellFormed ↔ (bare offsets targets).checkTopology = .ok () := by
  rw [checkTopology_eq_ok_iff]
  constructor
  · intro well
    exact ⟨well.offsets, well.targets⟩
  · intro ⟨ends, inside⟩
    exact ⟨ends, inside, nofun, nofun, nofun, nofun, nofun, nofun⟩

end Graph
end GraphSnapshot
