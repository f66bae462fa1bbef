import GraphSnapshot.Proofs.Archive.Made
import GraphSnapshot.Proofs.Snapshot.Saving

/-! Exact archives. Whatever values archives are made of, and graphs that are saved are no exception,
the counts in them agree with what is there. -/
namespace GraphSnapshot.Snapshot
open Archive

/-- Saving a graph writes its arrays, and numbers. -/
theorem composedWith_save [Zlib] {g : Graph}
    (arrays : ∀ depth a, (entries g).Holds depth (.array a) → (Value.array a).Made) :
    ComposedWith Value.Made (save g) := by
  have array {f : Field} {a : NumericArray} (has : value? g f = some (.array a)) :
      (Value.array a).Made := arrays 1 a (.entry (mem_entries_iff.mpr ⟨f, rfl, has⟩))
  have ids (f : Field) (ids : TypeIds) : ComposedWith Value.Made (saveTypeIds f ids) :=
    .within _ (composedWith_list_forM fun _ _ => .write _ (.int _))
  have table {f : Field} {t : Table} (has : value? g f = some (.record t.entries)) :
      ComposedWith Value.Made (saveTable f t) := by
    refine .within _ (composedWith_list_forM fun column member => .write _ ?_)
    have inner : (column.1, Value.array column.2) ∈ t.entries := List.mem_map_of_mem member
    exact arrays 2 column.2 (.inside (mem_entries_iff.mpr ⟨f, rfl, has⟩) (.entry inner))
  rw [save_eq_forM]
  refine composedWith_list_forM fun f _ => ?_
  cases f with
  | version => exact .write _ (.int _)
  | rowOffsets => exact .write _ (array (f := .rowOffsets) rfl)
  | colIndices => exact .write _ (array (f := .colIndices) rfl)
  | nodeTypeOffset =>
      refine composedWith_option_forM fun ranges has => .write _ (array (f := .nodeTypeOffset) ?_)
      exact Option.map_eq_some_iff.mpr ⟨ranges, has, rfl⟩
  | typePerEdge =>
      refine composedWith_option_forM fun types has => .write _ (array (f := .typePerEdge) ?_)
      exact Option.map_eq_some_iff.mpr ⟨types, has, rfl⟩
  | nodeTypeToId | edgeTypeToId => exact composedWith_option_forM fun _ _ => ids _ _
  | nodeAttributes | edgeAttributes =>
      refine composedWith_option_forM fun t has => table ?_
      exact Option.map_eq_some_iff.mpr ⟨t, has, rfl⟩

/-- Archives are exact. At any level below the root and below each open scope, records have distinct
keys, and the bytes, elements and rows of arrays are as many as their sizes say, in numbers that are
words. This holds of whatever comes of a new archive or of any bytes, as long as the values that are
written are made by the operations on values, and saving a graph of such values writes only such. -/
theorem exact_of_made [Zlib] :
    (∀ {a : Archive}, a.Made → ∀ record : Record,
      (record = a.root ∨ ∃ scope ∈ a.scopes, record = scope.entries) →
      record.Distinct ∧
        (∀ depth inner, record.Holds depth (.record inner) → Entries.Distinct inner) ∧
        ∀ depth array, record.Holds depth (.array array) → array.Exact) ∧
    ∀ g : Graph, (∀ depth a, (entries g).Holds depth (.array a) → (Value.array a).Made) →
      ComposedWith Value.Made (save g) := by
  refine ⟨?_, fun g => composedWith_save⟩
  intro a made record stored
  have well := made.wellFormed_of_stored stored
  refine ⟨(Value.wellFormed_record_iff.mp well).1, ?_, ?_⟩
  · intro depth inner held
    exact (Value.wellFormed_record_iff.mp (Value.wellFormed_of_holds well held)).1
  · intro depth array held
    exact NumericArray.Sized.exact (Value.wellFormed_of_holds well held)

/-- An array with a size of zero, two levels down, and a graph in an open scope. -/
theorem exact_of_made_empty :
    let _ := Zlib.sample
    let array : NumericArray := ⟨.float32, .matrix 2 0, []⟩
    let root : Record := [("outer", .record [("inner", .record [("a", .array array)])])]
    let a : Archive := ⟨.writing {}, root, [⟨"open", entries .empty⟩]⟩
    a.Made ∧ array.Exact ∧ root.Distinct ∧ Entries.Distinct (entries .empty) := by
  intro known array root a
  obtain ⟨exact, saves⟩ := exact_of_made
  have arrays : ∀ depth array, (entries .empty).Holds depth (.array array) →
      (Value.array array).Made := by
    intro depth array held
    cases held with
    | entry member =>
        obtain ⟨f, _, has⟩ := mem_entries_iff.mp member
        cases f with
        | rowOffsets | colIndices =>
            cases has
            exact .array (.ofElements _ _ (by decide))
        | _ => cases has
    | inside member _ =>
        obtain ⟨f, _, has⟩ := mem_entries_iff.mp member
        cases f with
        | _ => cases has
  have inner : Value.Made (.record [("a", .array array)]) :=
    .insert .empty (.array (.new (rfl : NumericArray.new .float32 (.matrix 2 0) [] = _))) rfl
  have composed : ComposedWith Value.Made (do
      within "outer" (write "inner" (.record [("a", .array array)]))
      enterScope "open"
      save .empty) :=
    .bind (.within "outer" (.write "inner" inner)) fun _ =>
      .bind (.enterScope "open") fun _ => saves .empty arrays
  have made : a.Made := (Made.writer {}).perform composed
  obtain ⟨distinct, _, arrays⟩ := exact made root (.inl rfl)
  have held : root.Holds 3 (.array array) :=
    .inside List.mem_cons_self (.inside List.mem_cons_self (.entry List.mem_cons_self))
  obtain ⟨distinct', _, _⟩ := exact made (entries .empty) (.inr ⟨_, List.mem_cons_self, rfl⟩)
  exact ⟨made, arrays 3 array held, distinct, distinct'⟩

end GraphSnapshot.Snapshot
