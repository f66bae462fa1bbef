import GraphSnapshot.Proofs.Archive.Adding
import GraphSnapshot.Proofs.Snapshot.Entries

/-! Saving. A graph that is saved adds its entries to the current scope, field by field. -/
namespace GraphSnapshot.Snapshot
open Archive (Action write perform_write_of_free perform_forM_write perform_within_of_extend)

def saveField (g : Graph) : Field → Action Unit
  | .version => write Field.version.key (.int version)
  | .rowOffsets => write Field.rowOffsets.key (intArray g.offsets)
  | .colIndices => write Field.colIndices.key (intArray g.targets)
  | .nodeTypeOffset => g.nodeRanges.forM fun ranges => write Field.nodeTypeOffset.key (intArray ranges)
  | .typePerEdge => g.edgeTypes.forM fun types => write Field.typePerEdge.key (byteArray types)
  | .nodeTypeToId => g.nodeTypeIds.forM (saveTypeIds .nodeTypeToId)
  | .edgeTypeToId => g.edgeTypeIds.forM (saveTypeIds .edgeTypeToId)
  | .nodeAttributes => g.nodeTable.forM (saveTable .nodeAttributes)
  | .edgeAttributes => g.edgeTable.forM (saveTable .edgeAttributes)

theorem save_eq_forM (g : Graph) : save g = Field.all.forM (saveField g) := by
  simp only [save, Field.all, List.forM, saveField, bind_pure_unit]

variable {a : Archive}

theorem perform_saveTypeIds (writing : a.isWriting = true) (shallow : a.depth < Archive.maxDepth)
    {field : Field} (free : field.key ∉ a.current.keys) (ids : TypeIds) :
    a.perform (saveTypeIds field ids) = (.ok (), a.extend [(field.key, .record ids.entries)]) := by
  apply perform_within_of_extend writing shallow free
  intro inner writing new
  refine perform_forM_write Value.int writing ids.distinct_pairs ?_
  intro key _
  rw [new]
  exact List.not_mem_nil

theorem perform_saveTable (writing : a.isWriting = true) (shallow : a.depth < Archive.maxDepth)
    {field : Field} (free : field.key ∉ a.current.keys) (table : Table) :
    a.perform (saveTable field table) = (.ok (), a.extend [(field.key, .record table.entries)]) := by
  apply perform_within_of_extend writing shallow free
  intro inner writing new
  refine perform_forM_write Value.array writing table.distinct ?_
  intro key _
  rw [new]
  exact List.not_mem_nil

/-- The current scope takes a field: its key is free, and if it is a record, one more scope can be
opened. A field that the graph does not have is taken anywhere. -/
def Takes (a : Archive) (g : Graph) (f : Field) : Prop :=
  ∀ v, value? g f = some v →
    f.key ∉ a.current.keys ∧ ∀ entries, v = .record entries → a.depth < Archive.maxDepth

theorem perform_forM_option {β : Type} {g : Graph} {f : Field} {step : β → Action Unit}
    {toValue : β → Value} {o : Option β} (value : value? g f = o.map toValue)
    (performed : ∀ x, value? g f = some (toValue x) →
      a.perform (step x) = (.ok (), a.extend [(f.key, toValue x)])) :
    a.perform (o.forM step) = (.ok (), a.extend (entryOf g f)) := by
  rw [entryOf, value]
  cases o with
  | none =>
      change a.perform (pure ()) = (.ok (), a.extend [])
      rw [Archive.extend_nil]
      rfl
  | some x => exact performed x value

theorem perform_saveField (writing : a.isWriting = true) {g : Graph} {f : Field}
    (takes : Takes a g f) : a.perform (saveField g f) = (.ok (), a.extend (entryOf g f)) := by
  have written {v : Value} (has : value? g f = some v) :
      a.perform (write f.key v) = (.ok (), a.extend [(f.key, v)]) :=
    perform_write_of_free writing (takes v has).1 v
  cases f with
  | version | rowOffsets | colIndices => exact written rfl
  | nodeTypeOffset | typePerEdge => exact perform_forM_option rfl fun _ => written
  | nodeTypeToId | edgeTypeToId =>
      refine perform_forM_option rfl fun ids has => ?_
      exact perform_saveTypeIds writing ((takes _ has).2 _ rfl) (takes _ has).1 ids
  | nodeAttributes | edgeAttributes =>
      refine perform_forM_option rfl fun table has => ?_
      exact perform_saveTable writing ((takes _ has).2 _ rfl) (takes _ has).1 table

theorem takes_of_forM_option {β : Type} {g : Graph} {f : Field} {step : β → Action Unit}
    {toValue : β → Value} {o : Option β} (value : value? g f = o.map toValue)
    (takes : ∀ x after, a.perform (step x) = (.ok (), after) → f.key ∉ a.current.keys ∧
      ∀ entries, toValue x = .record entries → a.depth < Archive.maxDepth)
    {after : Archive} (saved : a.perform (o.forM step) = (.ok (), after)) : Takes a g f := by
  intro v has
  rw [value] at has
  obtain ⟨x, rfl, rfl⟩ := Option.map_eq_some_iff.mp has
  exact takes x after saved

theorem takes_of_saveField (writing : a.isWriting = true) {g : Graph} {f : Field} {after : Archive}
    (saved : a.perform (saveField g f) = (.ok (), after)) : Takes a g f := by
  have entered {body : Action Unit} {entries : Record} {after : Archive}
      (performed : a.perform (Archive.within f.key body) = (.ok (), after)) :
      f.key ∉ a.current.keys ∧
        ∀ inner, Value.record entries = .record inner → a.depth < Archive.maxDepth := by
    obtain ⟨_, opened⟩ := Archive.exists_opened_of_within performed
    exact ⟨Archive.not_mem_keys_of_opened writing opened,
      fun _ _ => (Archive.opened_eq_ok_iff.mp opened).1⟩
  cases f with
  | version | rowOffsets | colIndices =>
      rintro _ ⟨⟩
      exact ⟨Archive.not_mem_keys_of_write saved, nofun⟩
  | nodeTypeOffset | typePerEdge =>
      refine takes_of_forM_option rfl (fun x after performed => ?_) saved
      exact ⟨Archive.not_mem_keys_of_write performed, nofun⟩
  | nodeTypeToId | edgeTypeToId | nodeAttributes | edgeAttributes =>
      exact takes_of_forM_option rfl (fun _ _ => entered) saved

theorem takes_extend_iff {g : Graph} {f f' : Field} (other : f ≠ f') :
    Takes (a.extend (entryOf g f')) g f ↔ Takes a g f := by
  have key : f.key ∉ Entries.keys (entryOf g f') := by
    intro member
    have same := List.mem_singleton.mp ((keys_entryOf_sublist g f').subset member)
    exact other (key_injective same)
  simp only [Takes, Archive.current_extend, Entries.keys_append, List.mem_append, key, or_false,
    Archive.depth_extend]

/-- Fields are saved one after another if the current scope takes each of them, and not otherwise. -/
theorem perform_forM_saveField_eq_ok_iff {g : Graph} {fields : List Field} (distinct : fields.Nodup)
    (writing : a.isWriting = true) {saved : Archive} :
    a.perform (fields.forM (saveField g)) = (.ok (), saved) ↔
      (∀ f ∈ fields, Takes a g f) ∧ saved = a.extend (entriesOf g fields) := by
  induction fields generalizing a with
  | nil =>
      change (Except.ok (), a) = (Except.ok (), saved) ↔ _ ∧ saved = a.extend []
      rw [Archive.extend_nil, Prod.mk.injEq]
      constructor
      · rintro ⟨_, rfl⟩
        exact ⟨List.forall_mem_nil _, rfl⟩
      · rintro ⟨_, rfl⟩
        exact ⟨rfl, rfl⟩
  | cons f rest ih =>
      obtain ⟨apart, distinct⟩ := List.nodup_cons.mp distinct
      have later : (∀ f' ∈ rest, Takes (a.extend (entryOf g f)) g f') ↔ ∀ f' ∈ rest, Takes a g f' :=
        forall₂_congr fun f' member => takes_extend_iff fun same => apart (same ▸ member)
      have whole : entriesOf g (f :: rest) = entryOf g f ++ entriesOf g rest := List.flatMap_cons
      have next := ih distinct (a := a.extend (entryOf g f))
        (by rw [Archive.isWriting_extend, writing])
      rw [later, Archive.extend_extend, ← whole] at next
      rw [List.forall_mem_cons, and_assoc, ← next, List.forM]
      constructor
      · intro performed
        have takes : Takes a g f := by
          rw [Archive.perform_bind] at performed
          split at performed
          · next first => exact takes_of_saveField writing first
          · cases performed
        rw [Archive.perform_bind_of_ok (perform_saveField writing takes)] at performed
        exact ⟨takes, performed⟩
      · rintro ⟨takes, performed⟩
        rw [Archive.perform_bind_of_ok (perform_saveField writing takes), performed]

/-- A graph is saved exactly where the current scope takes all its fields, as one entry for each. -/
theorem perform_save_eq_ok_iff {g : Graph} (writing : a.isWriting = true) {saved : Archive} :
    a.perform (save g) = (.ok (), saved) ↔ (∀ f, Takes a g f) ∧ saved = a.extend (entries g) := by
  rw [save_eq_forM, perform_forM_saveField_eq_ok_iff (by decide : Field.all.Nodup) writing]
  refine and_congr_left fun _ => ?_
  exact ⟨fun takes f => takes f f.mem_all, fun takes f _ => takes f⟩

theorem free_of_takes {g : Graph} (takes : ∀ f, Takes a g f) :
    ∀ key ∈ Entries.keys (entries g), key ∉ a.current.keys := by
  intro key member
  obtain ⟨⟨name, v⟩, inside, same⟩ := List.mem_map.mp member
  obtain ⟨f, named, has⟩ := mem_entries_iff.mp inside
  exact named.trans same ▸ (takes f v has).1

theorem perform_save (g : Graph) (writing : a.isWriting = true)
    (shallow : a.depth < Archive.maxDepth) (free : ∀ f : Field, f.key ∉ a.current.keys) :
    a.perform (save g) = (.ok (), a.extend (entries g)) :=
  (perform_save_eq_ok_iff writing).mpr ⟨fun f _ _ => ⟨free f, fun _ _ => shallow⟩, rfl⟩

theorem serialize_eq [Zlib] (g : Graph) (options : WriteOptions) :
    serialize g options = Archive.toBytes ⟨.writing options, entries g, []⟩ := by
  have saved := perform_save (a := .writer options) g rfl (by decide : 0 < 64) fun _ => nofun
  unfold serialize
  rw [saved]
  rfl

theorem serialize_eq_ok_iff [Zlib] {g : Graph} {options : WriteOptions} {bytes : List UInt8} :
    serialize g options = .ok bytes ↔
      ∃ payload, Payload.encode (entries g) = .ok payload ∧
        Archive.container payload options = bytes := by
  rw [serialize_eq, Archive.toBytes_eq_ok_iff]
  constructor
  · intro ⟨_, payload, mode, _, encoded, same⟩
    obtain rfl := Mode.writing.inj mode
    exact ⟨payload, encoded, same⟩
  · intro ⟨payload, encoded, same⟩
    exact ⟨options, payload, rfl, rfl, encoded, same⟩

end GraphSnapshot.Snapshot
