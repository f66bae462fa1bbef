import GraphSnapshot.Proofs.Archive.Restoring
import GraphSnapshot.Proofs.Snapshot.Transaction

/-! Saving that fails. A field is saved whole or not at all, so a graph whose field is refused leaves
behind the entries of the fields before it. Nothing takes these back, unless the graph is saved in a
scope of its own. -/
namespace GraphSnapshot.Snapshot
open Archive
variable {a after : Archive} {g : Graph} {f : Field} {fault : Fault}

theorem unchanged_of_option_forM_error {α : Type} {step : α → Action Unit} {o : Option α}
    (unchanged : ∀ x, a.perform (step x) = (.error fault, after) → after = a)
    (failed : a.perform (o.forM step) = (.error fault, after)) : after = a := by
  cases o with
  | none => cases failed
  | some x => exact unchanged x failed

theorem unchanged_of_saveField_error (failed : a.perform (saveField g f) = (.error fault, after)) :
    after = a := by
  cases f with
  | version | rowOffsets | colIndices => exact unchanged_of_write_error failed
  | nodeTypeOffset | typePerEdge =>
      exact unchanged_of_option_forM_error (fun _ => unchanged_of_write_error) failed
  | nodeTypeToId | edgeTypeToId | nodeAttributes | edgeAttributes =>
      refine unchanged_of_option_forM_error (fun _ => unchanged_of_within_error ?_) failed
      exact nested_list_forM (fun _ => .write _ _) _

theorem takes_extend_entriesOf_iff {fields : List Field} (apart : f ∉ fields) :
    Takes (a.extend (entriesOf g fields)) g f ↔ Takes a g f := by
  induction fields generalizing a with
  | nil =>
      change Takes (a.extend []) g f ↔ _
      rw [extend_nil]
  | cons first rest ih =>
      rw [List.mem_cons, not_or] at apart
      obtain ⟨other, apart⟩ := apart
      have whole : entriesOf g (first :: rest) = entryOf g first ++ entriesOf g rest :=
        List.flatMap_cons
      rw [whole, ← extend_extend, ih apart, takes_extend_iff other]

theorem takes_version_iff : Takes a g .version ↔ Field.version.key ∉ a.current.keys := by
  constructor
  · intro takes
    exact (takes _ rfl).1
  · intro free
    rintro _ ⟨⟩
    exact ⟨free, nofun⟩

/-- The fields before the first that the current scope does not take are saved, and stay. -/
theorem exists_front_of_save_error (writing : a.isWriting = true)
    (failed : a.perform (save g) = (.error fault, after)) :
    ∃ front f back, Field.all = front ++ f :: back ∧ (∀ f' ∈ front, Takes a g f') ∧
      ¬Takes a g f ∧ after = a.extend (entriesOf g front) := by
  rw [save_eq_forM] at failed
  obtain ⟨front, f, back, before, all, saved, refused⟩ := exists_of_forM_error failed
  have nodup : (front ++ f :: back).Nodup := all ▸ (by decide : Field.all.Nodup)
  obtain ⟨distinct, _, apart⟩ := List.nodup_append.mp nodup
  obtain ⟨takes, rfl⟩ := (perform_forM_saveField_eq_ok_iff distinct writing).mp saved
  refine ⟨front, f, back, all, takes, ?_, unchanged_of_saveField_error refused⟩
  intro taken
  have apart : f ∉ front := fun before => apart f before f List.mem_cons_self rfl
  have last := perform_saveField ((isWriting_extend _ _).trans writing)
    ((takes_extend_entriesOf_iff apart).mpr taken)
  rw [last] at refused
  cases refused

theorem unchanged_of_save_error_of_reading (reading : a.isWriting = false)
    (failed : a.perform (save g) = (.error fault, after)) : after = a := by
  have same := (nested_save g).unchanged_of_reading reading
  rwa [failed] at same

/-- What a failed save leaves. While an archive is written, it is the entries of the fields before
the first one that the current scope does not take: so it is nothing only if that is the first field
of all. An archive that is read stays as it is. And saved in a scope of its own, a graph that fails
leaves no trace wherever that is. -/
theorem trace_of_save_error (g : Graph) (a : Archive) :
    (∀ fault after, a.perform (save g) = (.error fault, after) →
      (a.isWriting = true → ∃ front f back, Field.all = front ++ f :: back ∧
        (∀ f' ∈ front, Takes a g f') ∧ ¬Takes a g f ∧ after = a.extend (entriesOf g front)) ∧
      (after = a ↔ a.isWriting = false ∨ Field.version.key ∈ a.current.keys)) ∧
    ∀ key fault after, a.perform (within key (save g)) = (.error fault, after) → after = a := by
  refine ⟨?_, ?_⟩
  · intro fault after failed
    refine ⟨fun writing => exists_front_of_save_error writing failed, ?_⟩
    cases writing : a.isWriting with
    | false => exact ⟨fun _ => .inl rfl, fun _ => unchanged_of_save_error_of_reading writing failed⟩
    | true =>
        obtain ⟨front, f, back, all, takes, refused, rfl⟩ :=
          exists_front_of_save_error writing failed
        rw [extend_eq_self_iff, or_iff_right (nofun : ¬true = false), ← not_iff_not,
          ← takes_version_iff]
        cases front with
        | nil =>
            obtain ⟨rfl, _⟩ := List.cons.inj all
            exact ⟨fun kept => absurd rfl kept, fun taken => absurd taken refused⟩
        | cons first rest =>
            obtain ⟨rfl, _⟩ := List.cons.inj all
            exact ⟨fun _ => takes _ List.mem_cons_self, fun _ => nofun⟩
  · intro key fault after failed
    exact unchanged_of_within_error (nested_save g) failed

/-- The targets are refused after the version and the offsets, and nothing is written to an archive
that is read. -/
theorem trace_of_save_error_targets :
    let taken : Archive := ⟨.writing {}, [("col_indices", .int 1)], []⟩
    let reader : Archive := ⟨.reading ⟨1, false, 0, 0⟩, [("g", .record [])], []⟩
    (∃ fault after, taken.perform (save .empty) = (.error fault, after) ∧
      (∃ front, after = taken.extend (entriesOf .empty front)) ∧ after ≠ taken) ∧
    ∃ fault, reader.perform (within "g" (save .empty)) = (.error fault, reader) := by
  intro taken reader
  refine ⟨?_, ?_⟩
  · obtain ⟨fault, after, failed⟩ :
        ∃ fault after, taken.perform (save .empty) = (.error fault, after) := ⟨_, _, rfl⟩
    obtain ⟨fields, nothing⟩ := (trace_of_save_error .empty taken).1 fault after failed
    obtain ⟨front, _, _, _, _, _, left⟩ := fields rfl
    refine ⟨fault, after, failed, ⟨front, left⟩, ?_⟩
    rw [ne_eq, nothing]
    decide
  · obtain ⟨fault, after, failed⟩ :
        ∃ fault after, reader.perform (within "g" (save .empty)) = (.error fault, after) :=
      ⟨_, _, rfl⟩
    obtain rfl := (trace_of_save_error .empty reader).2 "g" fault after failed
    exact ⟨fault, failed⟩

/-- What a failed save has left can be written and loaded, as a graph that was never saved. -/
theorem deserialize_of_save_error :
    let _ := Zlib.sample
    let a : Archive := ⟨.writing {}, [("edge_attributes", .record [])], []⟩
    let table : Table := ⟨[("w", .ofElements .int64 [])], by decide⟩
    ∃ after bytes,
      a.perform (save { Graph.empty with edgeTable := some table }) =
        (.error (.duplicateKey "edge_attributes"), after) ∧
      after.toBytes = .ok bytes ∧
      deserialize bytes = .ok { Graph.empty with edgeTable := some .empty } := by
  intro known a table
  let root : Record := ("edge_attributes", .record []) :: entries .empty
  obtain ⟨payload, encoded, small⟩ :
      ∃ payload, Payload.encode root = .ok payload ∧ payload.length + Header.size < wordLimit :=
    ⟨_, rfl, by decide +kernel⟩
  have written := toBytes_eq_ok_iff (a := ⟨.writing {}, root, []⟩).mpr
    ⟨{}, payload, rfl, rfl, encoded, rfl⟩
  refine ⟨⟨.writing {}, root, []⟩, _, rfl, written, ?_⟩
  have saved : (Value.record (entries .empty)).WellFormed := by
    apply wellFormed_entries_of_encode Graph.Built.empty.valid encoded (by omega)
    intro key array member
    exact ⟨1, .entry (List.mem_cons_of_mem _ member)⟩
  have well : (Value.record root).WellFormed :=
    Value.wellFormed_record_append (Value.wellFormed_record_singleton Value.wellFormed_record_nil)
      saved (by decide)
  have has (f : Field) : Entries.get? root f.key =
      value? { Graph.empty with edgeTable := some .empty } f := by
    cases f <;> rfl
  have loaded := perform_load (a := ⟨.reading (storedHeader payload {}), root, []⟩) rfl rfl
    (by decide : 0 < 64) has
  rw [deserialize, ofBytes_container {} nofun well encoded small]
  exact congrArg Prod.fst loaded

end GraphSnapshot.Snapshot
