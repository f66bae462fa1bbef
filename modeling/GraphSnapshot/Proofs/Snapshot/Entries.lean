import GraphSnapshot.Proofs.Graph.Built
import GraphSnapshot.Proofs.Payload.Limits
import GraphSnapshot.Snapshot

/-! What a graph is saved as: one entry for each field that the graph has. -/
namespace GraphSnapshot.Snapshot

def value? (g : Graph) : Field → Option Value
  | .version => some (.int version)
  | .rowOffsets => some (intArray g.offsets)
  | .colIndices => some (intArray g.targets)
  | .nodeTypeOffset => g.nodeRanges.map intArray
  | .typePerEdge => g.edgeTypes.map byteArray
  | .nodeTypeToId => g.nodeTypeIds.map fun ids => .record ids.entries
  | .edgeTypeToId => g.edgeTypeIds.map fun ids => .record ids.entries
  | .nodeAttributes => g.nodeTable.map fun table => .record table.entries
  | .edgeAttributes => g.edgeTable.map fun table => .record table.entries

def entryOf (g : Graph) (f : Field) : Record := ((value? g f).map fun v => (f.key, v)).toList

def entriesOf (g : Graph) (fields : List Field) : Record := fields.flatMap (entryOf g)

def entries (g : Graph) : Record := entriesOf g Field.all

/-- If a graph has fields that are records, one more scope can be opened. -/
def HasRoom (a : Archive) (g : Graph) : Prop :=
  ∀ f entries, value? g f = some (.record entries) → a.depth < Archive.maxDepth

theorem mem_entryOf_iff {g : Graph} {f : Field} {key : String} {v : Value} :
    (key, v) ∈ entryOf g f ↔ f.key = key ∧ value? g f = some v := by
  unfold entryOf
  rw [Option.mem_toList, Option.map_eq_some_iff]
  constructor
  · intro ⟨v', found, same⟩
    cases same
    exact ⟨rfl, found⟩
  · intro ⟨named, found⟩
    exact ⟨v, found, Prod.ext named rfl⟩

theorem mem_entries_iff {g : Graph} {key : String} {v : Value} :
    (key, v) ∈ entries g ↔ ∃ f : Field, f.key = key ∧ value? g f = some v := by
  unfold entries entriesOf
  rw [List.mem_flatMap]
  constructor
  · intro ⟨f, _, member⟩
    exact ⟨f, mem_entryOf_iff.mp member⟩
  · intro ⟨f, found⟩
    exact ⟨f, f.mem_all, mem_entryOf_iff.mpr found⟩

theorem keys_entryOf_sublist (g : Graph) (f : Field) :
    (Entries.keys (entryOf g f)).Sublist [f.key] := by
  unfold entryOf
  cases value? g f with
  | none => exact List.nil_sublist _
  | some v => exact List.Sublist.refl _

theorem keys_entriesOf_sublist (g : Graph) (fields : List Field) :
    (Entries.keys (entriesOf g fields)).Sublist (fields.map Field.key) := by
  induction fields with
  | nil => exact .slnil
  | cons f rest ih =>
      rw [entriesOf, List.flatMap_cons, Entries.keys_append]
      exact (keys_entryOf_sublist g f).append ih

theorem distinct_entries (g : Graph) : Entries.Distinct (entries g) :=
  (keys_entriesOf_sublist g Field.all).nodup Field.nodup_keys

theorem key_injective {f f' : Field} (same : f.key = f'.key) : f = f' := by
  have back (f : Field) : Field.all.find? (fun other => other.key == f.key) = some f := by
    cases f <;> decide
  have found := back f
  rw [same, back f'] at found
  exact (Option.some.inj found).symm

theorem get?_entries (g : Graph) (f : Field) : (entries g).get? f.key = value? g f := by
  cases found : value? g f with
  | none =>
      apply Entries.get?_eq_none_iff.mpr
      intro taken
      obtain ⟨⟨key, v⟩, member, same⟩ := List.mem_map.mp taken
      obtain ⟨f', named, found'⟩ := mem_entries_iff.mp member
      obtain rfl := key_injective (named.trans same)
      exact nomatch found.symm.trans found'
  | some v => exact Entries.get?_of_mem (distinct_entries g) (mem_entries_iff.mpr ⟨f, rfl, found⟩)

/-- A graph whose arrays are smaller than a word of bytes is saved as a well-formed record. -/
theorem wellFormed_entries {g : Graph} (valid : g.Valid)
    (small : ∀ key a, (key, .array a) ∈ entries g → a.bytes.length < wordLimit) :
    (Value.record (entries g)).WellFormed := by
  have elements {f : Field} {t : ElementType} {xs : List t.Element}
      (found : value? g f = some (.array (.ofElements t xs))) :
      (NumericArray.ofElements t xs).Sized :=
    NumericArray.sized_ofElements (small f.key _ (mem_entries_iff.mpr ⟨f, rfl, found⟩))
  refine Value.wellFormed_record_iff.mpr ⟨distinct_entries g, ?_⟩
  intro key v member
  obtain ⟨f, _, found⟩ := mem_entries_iff.mp member
  cases f with
  | version =>
      cases found
      trivial
  | rowOffsets | colIndices =>
      obtain rfl := Option.some.inj found
      exact elements found
  | nodeTypeOffset | typePerEdge =>
      obtain ⟨xs, _, rfl⟩ := Option.map_eq_some_iff.mp found
      exact elements found
  | nodeTypeToId | edgeTypeToId =>
      obtain ⟨ids, _, rfl⟩ := Option.map_eq_some_iff.mp found
      exact ids.wellFormed_entries
  | nodeAttributes =>
      obtain ⟨table, has, rfl⟩ := Option.map_eq_some_iff.mp found
      exact table.wellFormed_entries (valid.nodes table has)
  | edgeAttributes =>
      obtain ⟨table, has, rfl⟩ := Option.map_eq_some_iff.mp found
      exact table.wellFormed_entries (valid.edges table has)

/-- The arrays of a graph stand in whatever is written with the graph in it, so none is longer. -/
theorem wellFormed_entries_of_encode {g : Graph} (valid : g.Valid) {root : Record}
    {payload : List UInt8} (encoded : Payload.encode root = .ok payload)
    (small : payload.length < wordLimit)
    (held : ∀ key a, (key, .array a) ∈ entries g → ∃ depth, root.Holds depth (.array a)) :
    (Value.record (entries g)).WellFormed := by
  apply wellFormed_entries valid
  intro key a member
  obtain ⟨depth, held⟩ := held key a member
  exact Nat.lt_of_le_of_lt (Payload.length_bytes_le_of_holds encoded held) small

theorem encodable_ids (ids : TypeIds) (room : Nat) : ids.entries.Encodable room := by
  apply Record.encodable_iff.mpr
  intro key v member
  obtain ⟨pair, _, same⟩ := List.mem_map.mp member
  cases same
  exact ⟨nofun, nofun⟩

theorem encodable_table_iff {table : Table} {room : Nat} :
    table.entries.Encodable room ↔ ∀ column ∈ table.columns, column.2.shape.rank ≤ 255 := by
  rw [Record.encodable_iff]
  constructor
  · intro h column member
    exact Value.encodable_array_iff.mp (h column.1 _ (List.mem_map_of_mem member))
  · intro h key v member
    obtain ⟨column, inside, same⟩ := List.mem_map.mp member
    cases same
    exact Value.encodable_array_iff.mpr (h column inside)

/-- Nothing but the rank of a column can be too large. -/
theorem encodable_entries_iff {g : Graph} :
    (entries g).Encodable Payload.maxDepth ↔
      ∀ table, g.nodeTable = some table ∨ g.edgeTable = some table →
        ∀ column ∈ table.columns, column.2.shape.rank ≤ 255 := by
  rw [Record.encodable_iff]
  constructor
  · intro h table has
    apply encodable_table_iff.mp
    apply Value.encodable_record_iff.mp
    rcases has with nodes | edges
    · have found : value? g .nodeAttributes = some (.record table.entries) :=
        Option.map_eq_some_iff.mpr ⟨table, nodes, rfl⟩
      exact h _ _ (mem_entries_iff.mpr ⟨_, rfl, found⟩)
    · have found : value? g .edgeAttributes = some (.record table.entries) :=
        Option.map_eq_some_iff.mpr ⟨table, edges, rfl⟩
      exact h _ _ (mem_entries_iff.mpr ⟨_, rfl, found⟩)
  · intro ranks key v member
    obtain ⟨f, _, found⟩ := mem_entries_iff.mp member
    have vector (t : ElementType) (xs : List t.Element) :
        (Value.array (.ofElements t xs)).Encodable Payload.maxDepth :=
      Value.encodable_array_iff.mpr (by decide : 1 ≤ 255)
    cases f with
    | version =>
        cases found
        exact ⟨nofun, nofun⟩
    | rowOffsets | colIndices =>
        cases found
        exact vector _ _
    | nodeTypeOffset | typePerEdge =>
        obtain ⟨xs, _, rfl⟩ := Option.map_eq_some_iff.mp found
        exact vector _ _
    | nodeTypeToId | edgeTypeToId =>
        obtain ⟨ids, _, rfl⟩ := Option.map_eq_some_iff.mp found
        exact Value.encodable_record_iff.mpr (encodable_ids ids _)
    | nodeAttributes =>
        obtain ⟨table, has, rfl⟩ := Option.map_eq_some_iff.mp found
        exact Value.encodable_record_iff.mpr (encodable_table_iff.mpr (ranks table (.inl has)))
    | edgeAttributes =>
        obtain ⟨table, has, rfl⟩ := Option.map_eq_some_iff.mp found
        exact Value.encodable_record_iff.mpr (encodable_table_iff.mpr (ranks table (.inr has)))

end GraphSnapshot.Snapshot
