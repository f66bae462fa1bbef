import GraphSnapshot.Value

/-! Entries with distinct names, values that are taken for one kind, and values that are well-formed all
the way down. -/
namespace GraphSnapshot

namespace Entries
variable {α : Type}

theorem distinct_nil : Distinct ([] : Entries α) := List.nodup_nil

theorem keys_append (front back : Entries α) :
    Entries.keys (front ++ back) = front.keys ++ back.keys := List.map_append

theorem distinct_append_iff {front back : Entries α} :
    Distinct (front ++ back) ↔
      front.Distinct ∧ back.Distinct ∧ ∀ key ∈ front.keys, key ∉ back.keys := by
  rw [Distinct, keys_append, List.nodup_append]
  refine and_congr_right fun _ => and_congr_right fun _ => ?_
  constructor
  · intro apart key here there
    exact apart key here key there rfl
  · intro apart key here other there same
    exact apart key here (same ▸ there)

theorem distinct_singleton (key : String) (value : α) : Distinct [(key, value)] :=
  List.pairwise_singleton _ key

theorem mem_keys_of_mem {entries : Entries α} {key : String} {value : α}
    (member : (key, value) ∈ entries) : key ∈ entries.keys :=
  List.mem_map.mpr ⟨(key, value), member, rfl⟩

theorem get?_eq_none_iff {entries : Entries α} {key : String} :
    entries.get? key = none ↔ key ∉ entries.keys := by
  rw [get?, List.lookup_eq_none_iff, keys, List.mem_map]
  constructor
  · rintro absent ⟨entry, member, rfl⟩
    exact absurd rfl (bne_iff_ne.mp (absent entry member))
  · intro absent entry member
    exact bne_iff_ne.mpr fun same => absent ⟨entry, member, same.symm⟩

theorem mem_of_get? {entries : Entries α} {key : String} {value : α}
    (found : entries.get? key = some value) : (key, value) ∈ entries := by
  obtain ⟨before, after, rfl, _⟩ := List.lookup_eq_some_iff.mp found
  exact List.mem_append_right before List.mem_cons_self

theorem get?_of_mem {entries : Entries α} (distinct : entries.Distinct) {key : String} {value : α}
    (member : (key, value) ∈ entries) : entries.get? key = some value := by
  obtain ⟨before, after, rfl⟩ := List.append_of_mem member
  refine List.lookup_eq_some_iff.mpr ⟨before, after, rfl, ?_⟩
  intro entry earlier
  apply bne_iff_ne.mpr
  rintro rfl
  exact (distinct_append_iff.mp distinct).2.2 entry.1 (mem_keys_of_mem earlier)
    (mem_keys_of_mem List.mem_cons_self)

/-- What is found stays found when more is added behind. -/
theorem get?_append_of_some {front : Entries α} {key : String} {value : α}
    (found : front.get? key = some value) (back : Entries α) :
    Entries.get? (front ++ back) key = some value := by
  rw [get?] at found ⊢
  rw [List.lookup_append, found, Option.some_or]

theorem get?_append_of_not_mem {front : Entries α} {key : String} (absent : key ∉ front.keys)
    (back : Entries α) : Entries.get? (front ++ back) key = back.get? key := by
  rw [← get?_eq_none_iff, get?] at absent
  rw [get?, List.lookup_append, absent, Option.none_or, get?]

theorem get?_singleton (key : String) (value : α) : Entries.get? [(key, value)] key = some value := by
  rw [get?, List.lookup_cons_self]

theorem get?_append_singleton_of_ne (entries : Entries α) {key name : String} (other : name ≠ key)
    (value : α) : Entries.get? (entries ++ [(key, value)]) name = entries.get? name := by
  have none : List.lookup name [(key, value)] = none := by
    rw [List.lookup_cons, beq_false_of_ne other, List.lookup_nil]
  rw [get?, List.lookup_append, none, Option.or_none, get?]

theorem require_eq_ok_iff {entries : Entries α} {key : String} {value : α} :
    entries.require key = .ok value ↔ entries.get? key = some value := by
  rw [require]
  cases entries.get? key with
  | none => exact ⟨nofun, nofun⟩
  | some found => rw [Except.ok.injEq, Option.some.injEq]

end Entries

namespace Value

theorem asInt_eq_ok_iff {v : Value} {i : Int64} : v.asInt = .ok i ↔ v = .int i := by
  cases v with
  | int j => rw [asInt, Except.ok.injEq, int.injEq]
  | _ => simp only [asInt, reduceCtorEq]

theorem asInt_eq_error_iff {v : Value} {fault : Fault} :
    v.asInt = .error fault ↔ v.kind ≠ .int ∧ .kindMismatch .int v.kind = fault := by
  cases v with
  | int i => exact ⟨nofun, fun ⟨other, _⟩ => absurd rfl other⟩
  | _ => simp [asInt, kind]

theorem asRecord_eq_ok_iff {v : Value} {entries : Record} :
    v.asRecord = .ok entries ↔ v = .record entries := by
  cases v with
  | record inner => rw [asRecord, Except.ok.injEq, record.injEq]
  | _ => simp only [asRecord, reduceCtorEq]

theorem asRecord_eq_error_iff {v : Value} {fault : Fault} :
    v.asRecord = .error fault ↔ v.kind ≠ .record ∧ .kindMismatch .record v.kind = fault := by
  cases v with
  | record entries => exact ⟨nofun, fun ⟨other, _⟩ => absurd rfl other⟩
  | _ => simp [asRecord, kind]

theorem wellFormedEntries_iff {entries : Record} :
    WellFormedEntries entries ↔ ∀ key v, (key, v) ∈ entries → v.WellFormed := by
  induction entries with
  | nil => exact ⟨fun _ _ _ => nofun, fun _ => trivial⟩
  | cons entry rest ih =>
    obtain ⟨name, first⟩ := entry
    rw [WellFormedEntries, ih]
    constructor
    · intro h key v member
      rcases List.mem_cons.mp member with same | later
      · obtain ⟨_, rfl⟩ := Prod.mk.inj same
        exact h.1
      · exact h.2 key v later
    · intro h
      exact ⟨h name first List.mem_cons_self,
        fun key v member => h key v (List.mem_cons_of_mem _ member)⟩

theorem wellFormed_record_iff {entries : Record} :
    (Value.record entries).WellFormed ↔
      entries.Distinct ∧ ∀ key v, (key, v) ∈ entries → v.WellFormed := by
  rw [WellFormed, wellFormedEntries_iff]

theorem wellFormed_record_nil : (Value.record []).WellFormed := ⟨List.nodup_nil, trivial⟩

theorem wellFormed_record_append {front back : Record} (first : (Value.record front).WellFormed)
    (second : (Value.record back).WellFormed) (apart : ∀ key ∈ front.keys, key ∉ back.keys) :
    (Value.record (front ++ back)).WellFormed := by
  obtain ⟨distinct, values⟩ := wellFormed_record_iff.mp first
  obtain ⟨distinct', values'⟩ := wellFormed_record_iff.mp second
  refine wellFormed_record_iff.mpr
    ⟨Entries.distinct_append_iff.mpr ⟨distinct, distinct', apart⟩, ?_⟩
  intro key v member
  rcases List.mem_append.mp member with here | there
  · exact values key v here
  · exact values' key v there

theorem wellFormed_record_singleton {key : String} {v : Value} (well : v.WellFormed) :
    (Value.record [(key, v)]).WellFormed :=
  ⟨Entries.distinct_singleton key v, well, trivial⟩

theorem wellFormed_of_get? {entries : Record} (well : (Value.record entries).WellFormed)
    {key : String} {v : Value} (found : entries.get? key = some v) : v.WellFormed :=
  (wellFormed_record_iff.mp well).2 key v (Entries.mem_of_get? found)

end Value
end GraphSnapshot
