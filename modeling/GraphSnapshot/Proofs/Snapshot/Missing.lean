import GraphSnapshot.Proofs.Snapshot.Finding

/-! What is not found in contents. A part of a graph is not found because nothing is there, because what
is there is of another kind, or because what is there breaks the rules of graphs. -/
namespace GraphSnapshot

/-- Data breaks the rules of its own structure. -/
def Fault.IsViolation (fault : Fault) : Prop := ∃ cause, fault = .violation cause

def OnlyViolates {α : Type} (e : Except Fault α) : Prop := ∀ fault, e = .error fault → fault.IsViolation

theorem onlyViolates_mapError {α : Type} (e : Except Violation α) :
    OnlyViolates (e.mapError Fault.violation) := by
  intro fault failed
  obtain ⟨cause, _, rfl⟩ := mapError_eq_error_iff.mp failed
  exact ⟨cause, rfl⟩

theorem Table.exists_insert {t : Table} {name : String} (free : name ∉ t.columns.keys)
    (column : NumericArray) : ∃ after, t.insert name column = .ok after := by
  have added := Entries.insert_eq_ok_iff.mpr ⟨free, (rfl : _ = t.columns ++ [(name, column)])⟩
  exact ⟨⟨_, Entries.distinct_of_insert t.distinct added⟩, insert_eq_ok_iff_append.mpr rfl⟩

def Table.Apart (t : Table) (rest : Record) : Prop := (t.columns.keys ++ rest.keys).Nodup

theorem Table.Apart.free {t : Table} {name : String} {value : Value} {rest : Record}
    (apart : t.Apart ((name, value) :: rest)) : name ∉ t.columns.keys := fun taken =>
  (List.nodup_append.mp apart).2.2 name taken name List.mem_cons_self rfl

theorem Table.Apart.of_insert {t after : Table} {name : String} {value : Value} {rest : Record}
    (apart : t.Apart ((name, value) :: rest)) {column : NumericArray}
    (added : t.insert name column = .ok after) : after.Apart rest := by
  rw [Apart, insert_eq_ok_iff_append.mp added, Entries.keys_append, List.append_assoc]
  exact apart

/-- In a record with distinct names, only a value that is no array is refused as a column. -/
theorem onlyViolates_ofRecord {record : Record} (distinct : record.Distinct) (owner : Owner) :
    OnlyViolates (Table.ofRecord record owner) := by
  intro fault failed
  have start : Table.Apart .empty record := distinct
  refine foldlM_fails Table.Apart Fault.IsViolation ?_ ?_ start failed
  · rintro t ⟨name, value⟩ rest fault apart refused
    cases value with
    | array column =>
        obtain ⟨after, added⟩ := Table.exists_insert apart.free column
        cases added.symm.trans refused
    | _ => exact ⟨_, (Except.error.inj refused).symm⟩
  · rintro t ⟨name, value⟩ rest after apart added
    cases value with
    | array column => exact apart.of_insert added
    | _ => cases added

namespace Snapshot

theorem onlyViolates_elements (f : Field) (t : ElementType) (v : Value) :
    OnlyViolates (elements f t v) := by
  intro fault failed
  cases v with
  | array a =>
      dsimp only [elements] at failed
      split at failed
      · next vector =>
        rw [NumericArray.toElements, if_pos vector.1.symm] at failed
        cases failed
      · exact ⟨_, (Except.error.inj failed).symm⟩
  | _ => exact ⟨_, (Except.error.inj failed).symm⟩

theorem onlyViolates_collectIds (f : Field) (entries : Record) :
    OnlyViolates (collectIds f entries) := by
  intro fault failed
  refine foldlM_fails (fun _ _ => True) Fault.IsViolation ?_ (fun _ _ _ _ _ _ => trivial) trivial
    failed
  rintro ids ⟨name, value⟩ rest fault _ refused
  cases value with
  | int id => cases refused
  | _ => exact ⟨_, (Except.error.inj refused).symm⟩

namespace Contents
variable {c : Contents} {depth : Nat} {f : Field} {fault : Fault}

def understood (c : Contents) : Except Fault Unit := do
  let stated ← (← c.require .version).asInt
  if stated ≠ version then throw (.unsupportedVersion stated.toInt)

def bare (c : Contents) : Except Fault Graph := do
  let offsets ← c.ints .rowOffsets
  let targets ← c.ints .colIndices
  (Graph.new offsets targets).mapError Fault.violation

theorem require_eq_error_iff :
    c.require f = .error fault ↔ c f = none ∧ .keyNotFound f.key = fault := by
  unfold require
  cases c f with
  | none => simp only [Except.error.injEq, true_and]
  | some value => exact ⟨nofun, fun ⟨absent, _⟩ => nomatch absent⟩

/-- Nothing but the one version is understood, and nothing but a number is taken for a version. -/
theorem understood_eq_error_iff :
    c.understood = .error fault ↔
      c .version = none ∧ .keyNotFound Field.version.key = fault ∨
      ∃ v, c .version = some v ∧ (v.kind ≠ .int ∧ .kindMismatch .int v.kind = fault ∨
        ∃ stated, v = .int stated ∧ stated ≠ version ∧ .unsupportedVersion stated.toInt = fault) := by
  simp only [understood, bind_eq_error_iff, require_eq_error_iff, require_eq_ok_iff,
    Value.asInt_eq_error_iff, Value.asInt_eq_ok_iff, refusal_eq_error_iff]

theorem understood_eq_ok_iff : c.understood = .ok () ↔ c .version = some (.int version) := by
  simp only [understood, bind_eq_ok_iff, require_eq_ok_iff, Value.asInt_eq_ok_iff, refusal_eq_ok_iff,
    ne_eq, Decidable.not_not]
  constructor
  · rintro ⟨_, found, _, rfl, rfl⟩
    exact found
  · intro found
    exact ⟨_, found, _, rfl, rfl⟩

theorem optional_eq_error_iff {α : Type} {find : Except Fault α} :
    c.optional f find = .error fault ↔ c f ≠ none ∧ find = .error fault := by
  unfold optional
  cases c f with
  | none => exact ⟨nofun, fun ⟨there, _⟩ => absurd rfl there⟩
  | some v =>
      change (find >>= fun x => pure (some x)) = .error fault ↔ _
      rw [bind_eq_error_iff, or_iff_left (fun ⟨_, _, ended⟩ => pure_ne_error ended)]
      exact (and_iff_right nofun).symm

theorem absent_or_violation_of_vector {α : Type} {t : ElementType} {ofBits : t.Element → α}
    (failed : c.vector f t ofBits = .error fault) :
    c f = none ∧ .keyNotFound f.key = fault ∨ fault.IsViolation := by
  simp only [vector, bind_eq_error_iff, require_eq_error_iff] at failed
  rcases failed with absent | ⟨v, _, refused | ⟨_, _, ⟨⟩⟩⟩
  · exact .inl absent
  · exact .inr (onlyViolates_elements f t v fault refused)

theorem onlyViolates_optional_vector {α : Type} {t : ElementType} {ofBits : t.Element → α} :
    OnlyViolates (c.optional f (c.vector f t ofBits)) := by
  intro fault failed
  obtain ⟨there, failed⟩ := optional_eq_error_iff.mp failed
  rcases absent_or_violation_of_vector failed with ⟨absent, _⟩ | violation
  · exact absurd absent there
  · exact violation

theorem absent_or_violation_of_bare (failed : c.bare = .error fault) :
    (∃ f ∈ [Field.rowOffsets, .colIndices], c f = none ∧ .keyNotFound f.key = fault) ∨
      fault.IsViolation := by
  simp only [bare, bind_eq_error_iff] at failed
  rcases failed with offsets | ⟨_, _, targets | ⟨_, _, unlinked⟩⟩
  · exact (absent_or_violation_of_vector offsets).imp_left fun absent => ⟨_, by decide, absent⟩
  · exact (absent_or_violation_of_vector targets).imp_left fun absent => ⟨_, by decide, absent⟩
  · exact .inr (onlyViolates_mapError _ fault unlinked)

/-- A record is not found if it lies too deep, is not there, or something else is. What is found has
distinct names, so none of its entries is refused. -/
theorem record_eq_error_iff (well : c.WellFormed) :
    c.record depth f = .error fault ↔
      Archive.maxDepth ≤ depth ∧ .violation (.scopeTooDeep f.key Archive.maxDepth) = fault ∨
      depth < Archive.maxDepth ∧ (c f = none ∧ .keyNotFound f.key = fault ∨
        ∃ v, c f = some v ∧ v.kind ≠ .record ∧ .kindMismatch .record v.kind = fault) := by
  simp only [Contents.record, check_eq_error_iff, bind_eq_error_iff, require_eq_error_iff,
    require_eq_ok_iff, Value.asRecord_eq_error_iff, Value.asRecord_eq_ok_iff, Nat.not_le]
  refine or_congr_right (and_congr_right fun _ => or_congr_right (exists_congr fun v => ?_))
  refine and_congr_right fun found => or_iff_left ?_
  rintro ⟨entries, rfl, failed⟩
  rw [collect_of_distinct (well f _ found).1] at failed
  cases failed

/-- What is there is not found as a record with a purpose if it lies too deep, is none, or does not
serve the purpose. -/
theorem mismatch_or_violation_of_optional_record {α : Type} {finish : Record → Except Fault α}
    (well : c.WellFormed) (violates : ∀ record : Record, record.Distinct → OnlyViolates (finish record))
    (failed : c.optional f (c.record depth f >>= finish) = .error fault) :
    (depth < Archive.maxDepth ∧
      ∃ v, c f = some v ∧ v.kind ≠ .record ∧ .kindMismatch .record v.kind = fault) ∨
    fault.IsViolation := by
  obtain ⟨there, failed⟩ := optional_eq_error_iff.mp failed
  rcases bind_eq_error_iff.mp failed with missing | ⟨record, found, refused⟩
  · rcases (record_eq_error_iff well).mp missing with ⟨_, deep⟩ | ⟨shallow, ⟨absent, _⟩ | other⟩
    · exact .inr ⟨_, deep.symm⟩
    · exact absurd absent there
    · exact .inl ⟨shallow, other⟩
  · exact .inr (violates record (record_eq_ok_iff.mp found).2.1 fault refused)

theorem optional_record_eq_mismatch {α : Type} {finish : Record → Except Fault α}
    (well : c.WellFormed) (shallow : depth < Archive.maxDepth) {v : Value} (found : c f = some v)
    (other : v.kind ≠ .record) :
    c.optional f (c.record depth f >>= finish) = .error (.kindMismatch .record v.kind) := by
  have missing := (record_eq_error_iff well).mpr (.inr ⟨shallow, .inr ⟨v, found, other, rfl⟩⟩)
  have there : c f ≠ none := fun absent => nomatch found.symm.trans absent
  exact optional_eq_error_iff.mpr ⟨there, bind_eq_error_iff.mpr (.inl missing)⟩

end Contents

end Snapshot
end GraphSnapshot
