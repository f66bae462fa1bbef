import GraphSnapshot.Fault

/-! Named things in the order in which they were added. Adding refuses a name that is taken, so
names stay distinct and the first thing of a name wins. -/
namespace GraphSnapshot

abbrev Entries (α : Type) := List (String × α)

namespace Entries
variable {α : Type}

def keys (entries : Entries α) : List String := entries.map Prod.fst

def contains (entries : Entries α) (key : String) : Bool := entries.any fun entry => entry.1 == key

def get? (entries : Entries α) (key : String) : Option α := entries.lookup key

def require (entries : Entries α) (key : String) : Except Fault α :=
  match entries.get? key with
  | some value => .ok value
  | none => .error (.keyNotFound key)

def insert (entries : Entries α) (key : String) (value : α) : Except Fault (Entries α) :=
  if entries.contains key then .error (.duplicateKey key) else .ok (entries ++ [(key, value)])

def ofPairs (pairs : List (String × α)) : Except Fault (Entries α) :=
  pairs.foldlM (fun entries pair => entries.insert pair.1 pair.2) []

def Distinct (entries : Entries α) : Prop := entries.keys.Nodup

instance (entries : Entries α) : Decidable entries.Distinct :=
  inferInstanceAs (Decidable entries.keys.Nodup)

theorem contains_iff {entries : Entries α} {key : String} :
    entries.contains key = true ↔ key ∈ entries.keys := by
  simp only [contains, keys, List.any_eq_true, beq_iff_eq, List.mem_map]

theorem insert_eq_ok_iff {entries after : Entries α} {key : String} {value : α} :
    entries.insert key value = .ok after ↔ key ∉ entries.keys ∧ after = entries ++ [(key, value)] := by
  rw [← contains_iff, insert]
  split
  · next taken => simp only [reduceCtorEq, taken, not_true_eq_false, false_and]
  · next free =>
    simp only [Except.ok.injEq, Bool.not_eq_true, free, true_and]
    exact eq_comm

theorem distinct_of_insert {entries after : Entries α} {key : String} {value : α}
    (distinct : entries.Distinct) (h : entries.insert key value = .ok after) : after.Distinct := by
  obtain ⟨free, rfl⟩ := insert_eq_ok_iff.mp h
  rw [Distinct, keys, List.map_append, List.nodup_append]
  refine ⟨distinct, by simp, ?_⟩
  intro a old b new same
  rw [List.map_singleton, List.mem_singleton] at new
  exact free (by rwa [← show a = key from same.trans new])

end Entries
end GraphSnapshot
