import GraphSnapshot.Proofs.Snapshot.Failing

/-! The effect of saving. A graph that is saved adds its entries to the current scope, all of them or
those in front of the first one that is refused, and touches nothing else. -/
namespace GraphSnapshot

namespace Archive

/-- More entries stand behind those of the current scope, and nothing else has changed. -/
structure Adds (a after : Archive) (more : Record) : Prop where
  current : after.current = a.current ++ more
  mode : after.mode = a.mode
  names : after.scopes.map Scope.key = a.scopes.map Scope.key
  outer : after.scopes.tail = a.scopes.tail
  root : a.scopes ≠ [] → after.root = a.root

theorem adds_extend (a : Archive) (more : Record) : Adds a (a.extend more) more := by
  obtain ⟨mode, root, scopes⟩ := a
  cases scopes with
  | nil => exact ⟨rfl, rfl, rfl, rfl, fun some_ => absurd rfl some_⟩
  | cons scope outer => exact ⟨rfl, rfl, rfl, rfl, fun _ => rfl⟩

end Archive

namespace Snapshot
open Archive
variable {a after : Archive} {g : Graph}

/-- Fields are taken one by one, but only their keys and the depth count. -/
theorem forall_takes_iff : (∀ f, Takes a g f) ↔
    (∀ key ∈ Entries.keys (entries g), key ∉ a.current.keys) ∧ HasRoom a g := by
  constructor
  · intro takes
    exact ⟨free_of_takes takes, fun f entries has => (takes f _ has).2 entries rfl⟩
  · rintro ⟨free, room⟩ f v has
    refine ⟨free _ (List.mem_map_of_mem (mem_entries_iff.mpr ⟨f, rfl, has⟩)), ?_⟩
    rintro entries rfl
    exact room f entries has

theorem hasRoom_iff : HasRoom a g ↔ a.depth < maxDepth ∨
    g.nodeTypeIds = none ∧ g.edgeTypeIds = none ∧ g.nodeTable = none ∧ g.edgeTable = none := by
  constructor
  · intro room
    refine or_iff_not_imp_left.mpr fun deep => ?_
    have absent {β : Type} {f : Field} {toRecord : β → Record} {o : Option β}
        (value : value? g f = o.map fun x => .record (toRecord x)) : o = none := by
      cases o with
      | none => rfl
      | some x => exact absurd (room f _ value) deep
    exact ⟨absent (f := .nodeTypeToId) rfl, absent (f := .edgeTypeToId) rfl,
      absent (f := .nodeAttributes) rfl, absent (f := .edgeAttributes) rfl⟩
  · rintro (shallow | ⟨nodeIds, edgeIds, nodes, edges⟩) f entries has
    · exact shallow
    · cases f with
      | version | rowOffsets | colIndices => cases has
      | nodeTypeOffset | typePerEdge =>
          obtain ⟨_, _, same⟩ := Option.map_eq_some_iff.mp has
          cases same
      | nodeTypeToId | edgeTypeToId | nodeAttributes | edgeAttributes =>
          simp only [value?, nodeIds, edgeIds, nodes, edges, Option.map_none, reduceCtorEq] at has

theorem perform_save_ne_ok_of_reading (reading : a.isWriting = false) :
    a.perform (save g) ≠ (.ok (), after) := by
  intro saved
  rw [save_eq_forM, Field.all, List.forM, perform_bind, saveField,
    perform_write_of_reading reading] at saved
  cases saved

theorem entriesOf_isPrefix {front back : List Field} (all : Field.all = front ++ back) :
    entriesOf g front <+: entries g := by
  rw [entries, entriesOf, entriesOf, all, List.flatMap_append]
  exact List.prefix_append _ _

theorem exists_prefix_of_save_error {fault : Fault}
    (failed : a.perform (save g) = (.error fault, after)) :
    ∃ front, front <+: entries g ∧ after = a.extend front := by
  cases writing : a.isWriting with
  | true =>
      obtain ⟨front, f, back, all, _, _, left⟩ := exists_front_of_save_error writing failed
      exact ⟨_, entriesOf_isPrefix all, left⟩
  | false =>
      refine ⟨[], List.nil_prefix, ?_⟩
      rw [extend_nil]
      exact unchanged_of_save_error_of_reading writing failed

/-- Saving a graph succeeds exactly while an archive is written, in a scope that has none of the keys
of the graph, and where one more scope can be opened if the graph has a field that is a record. Then it
adds the entries of the graph, the fields in their order, the ids in the order of the names and the
columns in the order of the table. If it fails, it adds the first of these entries only, none of them
cut off. All else stays as it was, also the scopes that are open. -/
theorem save_effect (a : Archive) (g : Graph) :
    let ids (ids : TypeIds) : Value := .record (ids.pairs.map fun pair => (pair.1, .int pair.2))
    let table (table : Table) : Value :=
      .record (table.columns.map fun column => (column.1, .array column.2))
    ((∃ after, a.perform (save g) = (.ok (), after)) ↔ a.isWriting = true ∧
      (∀ key ∈ Entries.keys (entries g), key ∉ a.current.keys) ∧
      (a.depth < maxDepth ∨
        g.nodeTypeIds = none ∧ g.edgeTypeIds = none ∧ g.nodeTable = none ∧ g.edgeTable = none)) ∧
    (∀ after, a.perform (save g) = (.ok (), after) → Adds a after (entries g)) ∧
    (∀ fault after, a.perform (save g) = (.error fault, after) →
      ∃ front, front <+: entries g ∧ Adds a after front) ∧
    entries g =
      ("version", .int version) :: ("row_offsets", intArray g.offsets) ::
      ("col_indices", intArray g.targets) ::
      ((g.nodeRanges.map fun ranges => ("node_type_offset", intArray ranges)).toList ++
      ((g.edgeTypes.map fun types => ("type_per_edge", byteArray types)).toList ++
      ((g.nodeTypeIds.map fun named => ("node_type_to_id", ids named)).toList ++
      ((g.edgeTypeIds.map fun named => ("edge_type_to_id", ids named)).toList ++
      ((g.nodeTable.map fun columns => ("node_attributes", table columns)).toList ++
      (g.edgeTable.map fun columns => ("edge_attributes", table columns)).toList))))) := by
  intro ids table
  refine ⟨?_, ?_, ?_, ?_⟩
  · rw [← hasRoom_iff, ← forall_takes_iff]
    constructor
    · rintro ⟨after, saved⟩
      cases writing : a.isWriting with
      | true => exact ⟨rfl, ((perform_save_eq_ok_iff writing).mp saved).1⟩
      | false => exact absurd saved (perform_save_ne_ok_of_reading writing)
    · rintro ⟨writing, takes⟩
      exact ⟨_, (perform_save_eq_ok_iff writing).mpr ⟨takes, rfl⟩⟩
  · intro after saved
    cases writing : a.isWriting with
    | true =>
        obtain ⟨_, rfl⟩ := (perform_save_eq_ok_iff writing).mp saved
        exact adds_extend a _
    | false => exact absurd saved (perform_save_ne_ok_of_reading writing)
  · intro fault after failed
    obtain ⟨front, first, rfl⟩ := exists_prefix_of_save_error failed
    exact ⟨front, first, adds_extend a front⟩
  · simp only [entries, entriesOf, Field.all, List.flatMap_cons, List.flatMap_nil, entryOf, value?,
      Option.map_map, List.append_nil]
    rfl

/-- In the deepest scope a graph is saved, and refused with a table of ids, even if that is empty. -/
theorem save_effect_deepest :
    let a : Archive := ⟨.writing {}, [], List.replicate 64 ⟨"scope", []⟩⟩
    let named : Graph := { Graph.empty with edgeTypeIds := some .empty }
    (∃ after, a.perform (save .empty) = (.ok (), after) ∧ after.current = entries .empty) ∧
    ∃ fault after front, a.perform (save named) = (.error fault, after) ∧
      front <+: entries named ∧ after.current = front ∧
      after.scopes.map Scope.key = List.replicate 64 "scope" := by
  intro a named
  obtain ⟨bareSaved, added, _, _⟩ := save_effect a .empty
  obtain ⟨saved_iff, _, failing, _⟩ := save_effect a named
  refine ⟨?_, ?_⟩
  · have free (key : String) : key ∉ a.current.keys := List.not_mem_nil
    obtain ⟨after, saved⟩ :=
      bareSaved.mpr ⟨rfl, fun key _ => free key, .inr ⟨rfl, rfl, rfl, rfl⟩⟩
    exact ⟨after, saved, (added after saved).current⟩
  · have refused : ¬∃ after, a.perform (save named) = (.ok (), after) := by
      rw [saved_iff]
      rintro ⟨_, _, shallow | ⟨_, absent, _⟩⟩
      · exact absurd shallow (by decide)
      · cases absent
    cases performed : a.perform (save named) with
    | mk outcome after =>
        cases outcome with
        | ok => exact absurd ⟨after, performed⟩ refused
        | error fault =>
            obtain ⟨front, first, adds⟩ := failing fault after performed
            exact ⟨fault, after, front, rfl, first, adds.current, adds.names⟩

end Snapshot
end GraphSnapshot
