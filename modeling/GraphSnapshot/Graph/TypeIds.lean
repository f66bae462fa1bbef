/-! Tables that give each type name its id. The pairs stand in the order of the names, so equal
tables are equal lists. -/
namespace GraphSnapshot

structure TypeIds where
  pairs : List (String × Int64)
  sorted : pairs.Pairwise fun a b => a.1 < b.1
deriving DecidableEq

namespace TypeIds

def empty : TypeIds := ⟨[], .nil⟩

/-- A name that is there already gets the new id. -/
def insertPair (name : String) (id : Int64) : List (String × Int64) → List (String × Int64)
  | [] => [(name, id)]
  | (n, i) :: rest =>
    if name < n then (name, id) :: (n, i) :: rest
    else if n < name then (n, i) :: insertPair name id rest
    else (name, id) :: rest

theorem mem_insertPair {name : String} {id : Int64} {pairs : List (String × Int64)}
    {pair : String × Int64} (h : pair ∈ insertPair name id pairs) :
    pair = (name, id) ∨ pair ∈ pairs := by
  induction pairs with
  | nil => exact .inl (List.mem_singleton.mp h)
  | cons head rest ih =>
    simp only [insertPair] at h
    split at h
    · exact List.mem_cons.mp h
    · split at h
      · rcases List.mem_cons.mp h with rfl | later
        · exact .inr List.mem_cons_self
        · exact (ih later).imp_right (List.mem_cons_of_mem head)
      · exact (List.mem_cons.mp h).imp_right (List.mem_cons_of_mem head)

theorem sorted_insertPair (name : String) (id : Int64) {pairs : List (String × Int64)}
    (sorted : pairs.Pairwise fun a b => a.1 < b.1) :
    (insertPair name id pairs).Pairwise fun a b => a.1 < b.1 := by
  induction pairs with
  | nil => exact List.pairwise_singleton _ _
  | cons head rest ih =>
    obtain ⟨below, sorted⟩ := List.pairwise_cons.mp sorted
    simp only [insertPair]
    split
    · next less =>
      refine List.pairwise_cons.mpr ⟨?_, List.pairwise_cons.mpr ⟨below, sorted⟩⟩
      intro pair member
      rcases List.mem_cons.mp member with rfl | later
      · exact less
      · exact String.lt_trans less (below pair later)
    · next notLess =>
      split
      · next greater =>
        refine List.pairwise_cons.mpr ⟨?_, ih sorted⟩
        intro pair member
        rcases mem_insertPair member with rfl | old
        · exact greater
        · exact below pair old
      · next notGreater =>
        have same : name = head.1 := String.le_antisymm notGreater notLess
        exact List.pairwise_cons.mpr ⟨fun pair member => same ▸ below pair member, sorted⟩

def insert (ids : TypeIds) (name : String) (id : Int64) : TypeIds :=
  ⟨insertPair name id ids.pairs, sorted_insertPair name id ids.sorted⟩

/-- All pairs inserted in turn, so the last id of a name stays. -/
def ofPairs (pairs : List (String × Int64)) : TypeIds :=
  pairs.foldl (fun ids pair => ids.insert pair.1 pair.2) empty

def size (ids : TypeIds) : Nat := ids.pairs.length

end TypeIds
end GraphSnapshot
