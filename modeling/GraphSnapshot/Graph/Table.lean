import GraphSnapshot.Value

/-! Attribute tables: named columns in order, each an array with one row per node or edge. -/
namespace GraphSnapshot

structure Table where
  columns : Entries NumericArray
  distinct : columns.Distinct
deriving DecidableEq

namespace Table

def empty : Table := ⟨[], List.nodup_nil⟩

def insert (t : Table) (name : String) (column : NumericArray) : Except Fault Table :=
  match h : t.columns.insert name column with
  | .ok columns => .ok ⟨columns, Entries.distinct_of_insert t.distinct h⟩
  | .error fault => .error fault

theorem insert_eq_ok_iff {t after : Table} {name : String} {column : NumericArray} :
    t.insert name column = .ok after ↔ t.columns.insert name column = .ok after.columns := by
  rw [insert]
  split
  · next columns added =>
    refine ⟨fun same => ?_, fun same => ?_⟩
    · cases same
      exact added
    · obtain ⟨kept, distinct⟩ := after
      cases added.symm.trans same
      rfl
  · next fault refused =>
    exact ⟨nofun, fun same => nomatch refused.symm.trans same⟩

def ofPairs (pairs : List (String × NumericArray)) : Except Fault Table :=
  pairs.foldlM (fun table pair => table.insert pair.1 pair.2) empty

/-- Refuses the first column that has not `rows` entries along its first dimension. -/
def checkRows (t : Table) (rows : Nat) (owner : Owner) : Except Violation Unit :=
  t.columns.forM fun column =>
    if column.2.rows?.map UInt64.toNat = some rows then .ok ()
    else .error (.rowCount owner column.1 column.2.shape rows)

def ofRecord (record : Record) (owner : Owner) : Except Fault Table :=
  record.foldlM (fun table entry =>
    match entry.2 with
    | .array column => table.insert entry.1 column
    | value => .error (.violation (.columnNotAnArray owner entry.1 value.kind))) empty

end Table
end GraphSnapshot
