import GraphSnapshot.Graph.Basic
import GraphSnapshot.Proofs.Outcome
import GraphSnapshot.Proofs.Record

/-! Tables and their entries. A table comes of the record of what it consists of and of no other, where
the order counts for columns and does not for ids. -/
namespace GraphSnapshot

namespace TypeIds

theorem insertPair_perm {name : String} {pairs : List (String × Int64)}
    (free : name ∉ Entries.keys pairs) (id : Int64) :
    (insertPair name id pairs).Perm ((name, id) :: pairs) := by
  induction pairs with
  | nil => exact .refl _
  | cons head rest ih =>
      obtain ⟨other, later⟩ := not_or.mp (mt List.mem_cons.mpr free)
      simp only [insertPair]
      split
      · exact .refl _
      · split
        · exact ((ih later).cons head).trans (.swap _ _ _)
        · next notLess notGreater => exact absurd (String.le_antisymm notGreater notLess) other

/-- Pairs with new names, inserted in turn, are all there in the end. -/
theorem foldl_insert_perm {ids : TypeIds} {more : List (String × Int64)}
    (distinct : Entries.Distinct (more ++ ids.pairs)) :
    (more.foldl (fun ids pair => ids.insert pair.1 pair.2) ids).pairs.Perm (more ++ ids.pairs) := by
  induction more generalizing ids with
  | nil => exact .refl _
  | cons pair rest ih =>
      obtain ⟨apart, distinct⟩ := List.nodup_cons.mp distinct
      have free : pair.1 ∉ Entries.keys ids.pairs := by
        intro taken
        exact apart (List.map_append ▸ List.mem_append_right _ taken)
      have added : (ids.insert pair.1 pair.2).pairs.Perm (pair :: ids.pairs) :=
        insertPair_perm free pair.2
      have moved := (added.append_left rest).trans List.perm_middle
      refine (ih ?_).trans moved
      exact (moved.map Prod.fst).nodup_iff.mpr (List.nodup_cons.mpr ⟨apart, distinct⟩)

theorem distinct_pairs (ids : TypeIds) : Entries.Distinct ids.pairs := by
  refine List.pairwise_map.mpr (ids.sorted.imp ?_)
  intro a b less same
  exact String.lt_irrefl _ (same ▸ less)

/-- The order of the names leaves one table for each set of pairs. -/
theorem eq_of_perm {ids ids' : TypeIds} (same : ids.pairs.Perm ids'.pairs) : ids = ids' := by
  obtain ⟨pairs, sorted⟩ := ids
  obtain ⟨pairs', sorted'⟩ := ids'
  obtain rfl : pairs = pairs' := by
    refine List.Perm.eq_of_pairwise ?_ sorted sorted' same
    intro a b _ _ less greater
    exact absurd greater (String.lt_asymm less)
  rfl

theorem ofPairs_eq_iff {pairs : List (String × Int64)} (distinct : Entries.Distinct pairs)
    {ids : TypeIds} : ofPairs pairs = ids ↔ ids.pairs.Perm pairs := by
  have all : (ofPairs pairs).pairs.Perm (pairs ++ []) :=
    foldl_insert_perm (by rw [empty, List.append_nil]; exact distinct)
  rw [List.append_nil] at all
  constructor
  · rintro rfl
    exact all
  · intro same
    exact eq_of_perm (all.trans same.symm)

def entries (ids : TypeIds) : Record := ids.pairs.map fun pair => (pair.1, .int pair.2)

theorem distinct_entries (ids : TypeIds) : Entries.Distinct ids.entries := by
  have keys : Entries.keys ids.entries = Entries.keys ids.pairs := List.map_map
  rw [Entries.Distinct, keys]
  exact ids.distinct_pairs

theorem wellFormed_entries (ids : TypeIds) : (Value.record ids.entries).WellFormed := by
  refine Value.wellFormed_record_iff.mpr ⟨ids.distinct_entries, ?_⟩
  intro key v member
  obtain ⟨pair, _, same⟩ := List.mem_map.mp member
  cases same
  trivial

end TypeIds

namespace Table

def Sized (t : Table) : Prop := ∀ column ∈ t.columns, column.2.Sized

theorem sized_empty : empty.Sized := by
  intro column member
  cases member

def entries (t : Table) : Record := t.columns.map fun column => (column.1, .array column.2)

theorem eq_of_columns {t t' : Table} (same : t.columns = t'.columns) : t = t' := by
  obtain ⟨columns, distinct⟩ := t
  obtain ⟨columns', distinct'⟩ := t'
  cases same
  rfl

theorem insert_eq_ok_iff_append {t after : Table} {name : String} {column : NumericArray} :
    t.insert name column = .ok after ↔ after.columns = t.columns ++ [(name, column)] := by
  rw [insert_eq_ok_iff, Entries.insert_eq_ok_iff]
  constructor
  · exact And.right
  · intro added
    have distinct := after.distinct
    rw [added] at distinct
    refine ⟨fun taken => ?_, added⟩
    exact (Entries.distinct_append_iff.mp distinct).2.2 name taken List.mem_cons_self

theorem foldlM_insert_eq_ok_iff {columns : Entries NumericArray} {front t : Table} :
    columns.foldlM (fun table column => table.insert column.1 column.2) front = .ok t ↔
      t.columns = front.columns ++ columns := by
  induction columns generalizing front with
  | nil =>
      rw [List.append_nil]
      constructor
      · rintro ⟨⟩
        rfl
      · intro same
        exact congrArg Except.ok (eq_of_columns same.symm)
  | cons column rest ih =>
      rw [List.foldlM_cons, GraphSnapshot.bind_eq_ok_iff]
      simp only [insert_eq_ok_iff_append, ih]
      constructor
      · intro ⟨middle, added, same⟩
        rw [same, added, List.append_assoc, List.singleton_append]
      · intro same
        have distinct := t.distinct
        rw [same, ← List.singleton_append, ← List.append_assoc] at distinct
        refine ⟨⟨front.columns ++ [column], (Entries.distinct_append_iff.mp distinct).1⟩, rfl, ?_⟩
        rw [same, List.append_assoc, List.singleton_append]

theorem ofPairs_eq_ok_iff {columns : Entries NumericArray} {t : Table} :
    ofPairs columns = .ok t ↔ t.columns = columns := foldlM_insert_eq_ok_iff

/-- A table comes of just the record of its columns. -/
theorem ofRecord_eq_ok_iff {record : Record} {owner : Owner} {t : Table} :
    ofRecord record owner = .ok t ↔ record = t.entries := by
  have columns : ofRecord record owner = .ok t ↔ ∃ columns : Entries NumericArray,
      record = columns.map (fun column => (column.1, .array column.2)) ∧
        ofPairs columns = .ok t := by
    refine foldlM_eq_ok_iff_of_forms ?_
    rintro table ⟨name, value⟩ after
    cases value with
    | array column =>
        constructor
        · intro inserted
          exact ⟨(name, column), rfl, inserted⟩
        · rintro ⟨_, ⟨rfl⟩, inserted⟩
          exact inserted
    | _ =>
        constructor
        · rintro ⟨⟩
        · rintro ⟨_, ⟨⟩, _⟩
  rw [columns]
  constructor
  · rintro ⟨columns, rfl, made⟩
    rw [entries, ofPairs_eq_ok_iff.mp made]
  · intro same
    exact ⟨t.columns, same, ofPairs_eq_ok_iff.mpr rfl⟩

theorem distinct_entries (t : Table) : Entries.Distinct t.entries := by
  have keys : Entries.keys t.entries = t.columns.keys := List.map_map
  rw [Entries.Distinct, keys]
  exact t.distinct

theorem wellFormed_entries {t : Table} (sized : t.Sized) : (Value.record t.entries).WellFormed := by
  refine Value.wellFormed_record_iff.mpr ⟨t.distinct_entries, ?_⟩
  intro key v member
  obtain ⟨column, inside, same⟩ := List.mem_map.mp member
  cases same
  exact sized column inside

theorem sized_of_wellFormed_entries {t : Table} (well : (Value.record t.entries).WellFormed) :
    t.Sized := by
  intro column member
  have stored : (column.1, Value.array column.2) ∈ t.entries := List.mem_map_of_mem member
  exact (Value.wellFormed_record_iff.mp well).2 column.1 (.array column.2) stored

end Table

end GraphSnapshot
