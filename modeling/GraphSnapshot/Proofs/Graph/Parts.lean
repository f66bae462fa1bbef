import GraphSnapshot.Proofs.Graph.WellFormed

/-! Parts. Offsets that divide a total put each number below it into one part, also where other parts
are empty; and names that are numbered give each number below their count one name. -/
namespace GraphSnapshot

def TypeIds.Names (ids : TypeIds) (name : String) (n : Int) : Prop :=
  ∃ id, (name, id) ∈ ids.pairs ∧ id.toInt = n

theorem TypeIds.Numbered.existsUnique_name {ids : TypeIds} (numbered : ids.Numbered) {n : Int}
    (positive : 0 ≤ n) (small : n < ids.size) : ∃! name, ids.Names name n := by
  obtain ⟨⟨name, id⟩, inside, same⟩ := (numbered.numbers n).mpr ⟨positive, small⟩
  refine ⟨name, ⟨id, inside, same⟩, ?_⟩
  rintro other ⟨id', inside', same'⟩
  have ids : id' = id := Int64.toInt_inj.mp (same'.trans same.symm)
  exact numbered.one_name _ inside' _ inside ids

namespace Graph

/-- The part with the number `i` holds `k`: it begins at or before `k`, and the next one behind it. -/
def Covers (offsets : List Int64) (i k : Nat) : Prop :=
  ∃ first last, offsets[i]? = some first ∧ offsets[i + 1]? = some last ∧
    first.toInt ≤ k ∧ k < last.toInt

theorem toInt_le_of_ascending {offsets : List Int64} (ascending : offsets.Pairwise (· ≤ ·))
    {i j : Nat} (order : i ≤ j) {a b : Int64} (first : offsets[i]? = some a)
    (second : offsets[j]? = some b) : a.toInt ≤ b.toInt := by
  rcases Nat.lt_or_eq_of_le order with before | rfl
  · obtain ⟨_, rfl⟩ := List.getElem?_eq_some_iff.mp first
    obtain ⟨inside, rfl⟩ := List.getElem?_eq_some_iff.mp second
    exact Int64.le_iff_toInt_le.mp (List.pairwise_iff_getElem.mp ascending i j _ inside before)
  · obtain rfl := Option.some.inj (first.symm.trans second)
    exact Int.le_refl _

theorem exists_covers {first : Int64} {rest : List Int64} {k : Nat} (start : first.toInt ≤ k)
    (finish : k < (rest.getLastD first).toInt) : ∃ i, Covers (first :: rest) i k := by
  induction rest generalizing first with
  | nil => exact absurd finish (Int.not_lt.mpr start)
  | cons next rest ih =>
      by_cases reached : next.toInt ≤ k
      · obtain ⟨i, covers⟩ := ih reached (by rwa [List.getLastD_cons] at finish)
        exact ⟨i + 1, covers⟩
      · exact ⟨0, first, next, rfl, rfl, start, Int.not_le.mp reached⟩

theorem Covers.not_lt {offsets : List Int64} (ascending : offsets.Pairwise (· ≤ ·)) {i j k : Nat}
    (here : Covers offsets i k) (there : Covers offsets j k) : ¬i < j := by
  obtain ⟨_, last, _, next, _, above⟩ := here
  obtain ⟨first, _, place, _, below, _⟩ := there
  intro before
  have := toInt_le_of_ascending ascending before next place
  omega

theorem Divides.existsUnique_covers {offsets : List Int64} {total : Nat}
    (divides : Divides offsets total) {k : Nat} (small : k < total) : ∃! i, Covers offsets i k := by
  obtain ⟨start, ascending, finish⟩ := divides
  cases offsets with
  | nil => cases start
  | cons first rest =>
      obtain rfl := Option.some.inj start
      rw [List.getLast?_cons, ← List.getLastD_eq_getLast?] at finish
      have above : (0 : Int64).toInt ≤ k := Int.natCast_nonneg k
      have below : (k : Int) < (rest.getLastD 0).toInt := by
        rw [Option.some.inj finish]
        exact Int.ofNat_lt.mpr small
      obtain ⟨i, covers⟩ := exists_covers above below
      refine ⟨i, covers, fun j other => ?_⟩
      have notLess := other.not_lt ascending covers
      have notGreater := covers.not_lt ascending other
      omega

theorem Divides.bounds {offsets : List Int64} {total : Nat} (divides : Divides offsets total)
    {offset : Int64} (member : offset ∈ offsets) : 0 ≤ offset.toInt ∧ offset.toInt ≤ total := by
  obtain ⟨start, ascending, finish⟩ := divides
  obtain ⟨i, inside, rfl⟩ := List.mem_iff_getElem.mp member
  rw [List.head?_eq_getElem?] at start
  obtain ⟨last, place, same⟩ := Option.map_eq_some_iff.mp finish
  rw [List.getLast?_eq_getElem?] at place
  have here := List.getElem?_eq_getElem inside
  rw [← same]
  exact ⟨toInt_le_of_ascending ascending (Nat.zero_le i) start here,
    toInt_le_of_ascending ascending (by omega) here place⟩

end Graph
end GraphSnapshot
