import GraphSnapshot.Proofs.Payload.Fitting
import GraphSnapshot.Proofs.Snapshot.Independence
import GraphSnapshot.Proofs.Snapshot.RoundTrip
import Mathlib.Data.List.Nodup

/-! Saving what was loaded. The entries that a graph is saved as stand among the entries it was loaded
from, so wherever a graph was loaded from, it can be saved again. -/
namespace GraphSnapshot.Snapshot
open Archive
open Payload (Fits fits_cons_iff)

namespace Contents
variable {c c' : Contents} {depth : Nat} {g : Graph}

def entriesOf (c : Contents) (fields : List Field) : Record :=
  fields.flatMap fun f => ((c f).map fun v => (f.key, v)).toList

theorem entriesOf_subperm (root : Record) : ((contents root).entriesOf Field.all).Subperm root := by
  have mem_iff {f : Field} {entry : String × Value}
      (member : entry ∈ ((contents root f).map fun v => (f.key, v)).toList) :
      entry.1 = f.key ∧ entry ∈ root := by
    obtain ⟨v, found, rfl⟩ := Option.map_eq_some_iff.mp (Option.mem_toList.mp member)
    exact ⟨rfl, Entries.mem_of_get? found⟩
  apply List.Nodup.subperm
  · refine List.nodup_flatMap.mpr ⟨?_, ?_⟩
    · intro f _
      cases contents root f with
      | none => exact List.nodup_nil
      | some v => exact List.nodup_singleton _
    · refine (by decide : Field.all.Nodup).imp ?_
      intro f f' other entry member member'
      exact other (key_injective ((mem_iff member).1.symm.trans (mem_iff member').1))
  · intro entry member
    obtain ⟨f, _, inside⟩ := List.mem_flatMap.mp member
    exact (mem_iff inside).2

theorem fits_of_reordered {room size : Nat} (shown : ∀ f, Reordered f (c f) (c' f))
    {fields : List Field} (fits : Fits room size (c'.entriesOf fields)) :
    Fits room size (c.entriesOf fields) := by
  induction fields generalizing size with
  | nil => exact fits
  | cons f rest ih =>
      have shown := shown f
      rw [entriesOf, List.flatMap_cons] at fits ⊢
      generalize c f = o at shown ⊢
      generalize c' f = o' at shown fits
      cases shown with
      | same =>
          cases o with
          | none => exact ih fits
          | some v =>
              obtain ⟨front, left, first, others, small⟩ := fits_cons_iff.mp fits
              exact fits_cons_iff.mpr ⟨front, left, first, ih others, small⟩
      | ids _ moved =>
          obtain ⟨front, left, first, others, small⟩ := fits_cons_iff.mp fits
          obtain ⟨front', first', shorter⟩ := Payload.exists_encodeValue_of_perm first moved.symm
          refine fits_cons_iff.mpr ⟨front', left, first', ih others, Nat.le_trans ?_ small⟩
          exact Nat.add_le_add_right (Nat.add_le_add_left shorter _) left

theorem Has.valid (has : c.Has depth g) (well : c.WellFormed) (checked : g.validate = .ok ()) :
    g.Valid := by
  have sized {f : Field} {table : Table} (other : ¬(f = .nodeTypeToId ∨ f = .edgeTypeToId))
      (stored : value? g f = some (.record table.entries)) : table.Sized := by
    have found := (has.reordered well f).eq other
    exact Table.sized_of_wellFormed_entries (well f _ (found.trans stored))
  refine ⟨checked, ?_, ?_⟩
  · intro table there
    exact sized (by decide : ¬(Field.nodeAttributes = _ ∨ _))
      (Option.map_eq_some_iff.mpr ⟨table, there, rfl⟩)
  · intro table there
    exact sized (by decide : ¬(Field.edgeAttributes = _ ∨ _))
      (Option.map_eq_some_iff.mpr ⟨table, there, rfl⟩)

end Contents

theorem exists_encode_of_has {root : Record} (well : (Value.record root).WellFormed)
    {depth : Nat} {g : Graph} (has : (contents root).Has depth g) {payload : List UInt8}
    (encoded : Payload.encode root = .ok payload) :
    ∃ payload', Payload.encode (entries g) = .ok payload' ∧ payload'.length ≤ payload.length := by
  obtain ⟨body, written, rfl⟩ := Payload.encode_eq_ok_iff.mp encoded
  have whole : Fits Payload.maxDepth body.length root := ⟨body, written, Nat.le_refl _⟩
  have fits := Contents.fits_of_reordered (has.reordered (wellFormed_contents well))
    (whole.subperm (Contents.entriesOf_subperm root))
  obtain ⟨body', written', small⟩ := fits
  refine ⟨_, Payload.encode_eq_ok_iff.mpr ⟨body', written', rfl⟩, ?_⟩
  rw [List.length_append, List.length_append, Bytes.length_ofLength, Bytes.length_ofLength]
  omega

/-- What packed data unpacks to takes less than a word of bytes, like everything in memory. -/
def Unpackable [Zlib] (data : List UInt8) : Prop :=
  ∀ header payload, Header.parse data = .ok header → header.compressed = true →
    payloadOf header (data.drop Header.size) = .ok payload →
    payload.length + Header.size < wordLimit

theorem unpackable_container [Zlib] {payload : List UInt8}
    (small : payload.length + Header.size < wordLimit) {options : WriteOptions}
    (lossless : options.compresses = true → Zlib.Lossless) :
    Unpackable (container payload options) := by
  intro header payload' parsed _ content
  have own : Header.parse (container payload options) = .ok (storedHeader payload options) :=
    Header.parse_eq_ok_iff.mpr ⟨rfl, _, rfl⟩
  have behind : (container payload options).drop Header.size = (storedForm payload options).1 :=
    List.drop_left' (Header.length_toBytes _)
  have word : payload.length < wordLimit := Nat.lt_of_le_of_lt (Nat.le_add_right _ _) small
  obtain rfl := Except.ok.inj (own.symm.trans parsed)
  rw [behind, payloadOf_storedForm word lossless] at content
  exact Except.ok.inj content ▸ small

theorem exists_encode_of_ofBytes [Zlib] {data : List UInt8} (unpackable : Unpackable data)
    {a : Archive} (read : ofBytes data = .ok a) :
    ∃ header payload, a = ⟨.reading header, a.root, []⟩ ∧ (Value.record a.root).WellFormed ∧
      Payload.encode a.root = .ok payload ∧ payload.length + Header.size < wordLimit := by
  obtain ⟨header, stored, rfl, version⟩ := exists_header_of_ofBytes read
  obtain ⟨_, small, payload, root, content, decoded, rfl⟩ :=
    (ofBytes_append_eq_ok_iff version).mp read
  obtain ⟨⟨well, _⟩, encoded⟩ := Payload.decode_eq_ok_iff.mp decoded
  refine ⟨header, payload, rfl, well, encoded, ?_⟩
  cases packed : header.compressed with
  | true =>
      have behind : (header.toBytes ++ stored).drop Header.size = stored :=
        List.drop_left' (Header.length_toBytes header)
      refine unpackable header payload ?_ packed (by rw [behind, content])
      exact Header.parse_eq_ok_iff.mpr ⟨version, stored, rfl⟩
  | false =>
      rw [payloadOf_eq_ok_iff, packed] at content
      obtain ⟨_, rfl⟩ := content
      exact small

/-- Whatever is loaded can be saved again: a graph that comes of any bytes has bytes, with all options,
and these give the same graph, unless a compressor is asked for that loses something. -/
theorem serialize_of_deserialize [Zlib] {data : List UInt8} (unpackable : Unpackable data)
    {g : Graph} (h : deserialize data = .ok g) (options : WriteOptions) :
    ∃ bytes, serialize g options = .ok bytes ∧
      ((options.compresses = true → Zlib.Lossless) → deserialize bytes = .ok g) := by
  obtain ⟨a, read, loaded⟩ := bind_eq_ok_iff.mp h
  obtain ⟨header, payload, same, well, encoded, small⟩ := exists_encode_of_ofBytes unpackable read
  have reading : a.isWriting = false := by
    rw [same]
    rfl
  have current : a.current = a.root := by
    rw [same]
    rfl
  rw [perform_load_eq reading, current] at loaded
  obtain ⟨checked, has⟩ := Contents.graph_eq_ok_iff.mp loaded
  have valid := has.valid (wellFormed_contents well) checked
  obtain ⟨payload', encoded', shorter⟩ := exists_encode_of_has well has encoded
  have addressable : Addressable g :=
    addressable_iff.mpr (addressable_of_encode encoded' (by omega))
  have serialized : serialize g options = .ok (container payload' options) :=
    serialize_eq_ok_iff.mpr ⟨payload', encoded', rfl⟩
  refine ⟨_, serialized, fun lossless => ?_⟩
  exact deserialize_of_serialize valid addressable lossless serialized

/-- Packed data with the ids in another order, the fields in another order and a key that is no field. -/
theorem serialize_of_deserialize_foreign :
    let ids : TypeIds := ⟨[("author", 1), ("paper", 0)], by decide⟩
    let g : Graph := { Graph.bare [0, 1, 2] [1, 0] with nodeTypeIds := some ids }
    let root : Record := [("node_type_to_id", .record ids.entries.reverse), ("extra", .bool true),
      ("col_indices", intArray [1, 0]), ("row_offsets", intArray [0, 1, 2]), ("version", .int 1)]
    let payload := (Payload.encode root).toOption.getD []
    let body : List UInt8 := [93, 142, 81, 11, 194, 48, 12, 132, 27, 181, 110, 176, 7, 125, 244,
      223, 149, 178, 102, 88, 144, 166, 164, 85, 231, 191, 119, 99, 215, 61, 44, 15, 249, 184, 112,
      119, 196, 154, 109, 110, 96, 146, 192, 174, 254, 242, 178, 196, 197, 96, 79, 184, 91, 48, 251,
      204, 74, 16, 230, 10, 250, 119, 125, 138, 18, 29, 204, 60, 87, 245, 134, 6, 200, 81, 94, 46,
      166, 16, 71, 46, 151, 158, 90, 243, 29, 220, 75, 49, 45, 165, 242, 117, 50, 77, 133, 235, 154,
      58, 227, 250, 56, 184, 91, 186, 181, 118, 224, 135, 181, 68, 73, 251, 107, 127, 183, 169, 25,
      209]
    let _ := Zlib.sample payload body
    ∃ bytes, (storedForm payload ⟨9⟩).2 = true ∧
      deserialize (container payload ⟨9⟩) = .ok g ∧ serialize g {} = .ok bytes ∧
      deserialize bytes = .ok g := by
  intro ids g root payload body known
  have encoded : Payload.encode root = .ok payload := rfl
  have length : payload.length = 240 := by decide +kernel
  have small : payload.length + Header.size < wordLimit := by
    rw [length]
    decide
  have shorter : body.length + 10 < payload.length := by
    rw [length]
    decide +kernel
  have packed : (storedForm payload ⟨9⟩).2 = true := by
    rw [storedForm_sample ⟨9⟩ rfl shorter]
  have well : (Value.record root).WellFormed :=
    ⟨by decide, ⟨by decide, trivial, trivial, trivial⟩, trivial, (by decide : NumericArray.Sized _),
      (by decide : NumericArray.Sized _), trivial, trivial⟩
  have lossless := Zlib.sample_lossless payload body
  have read := ofBytes_container ⟨9⟩ (fun _ => lossless) well encoded small
  have shown : ∀ f, Reordered f (value? g f) (contents root f) := by
    intro f
    cases f with
    | nodeTypeToId => exact .ids (.inl rfl) (List.reverse_perm _).symm
    | _ => exact .same _
  have has : (contents root).Has 0 g :=
    (Contents.has_value? fun _ _ _ => (by decide : 0 < 64)).of_reordered shown
  have loaded : deserialize (container payload ⟨9⟩) = .ok g := by
    have found := perform_load_eq (a := ⟨.reading (storedHeader payload ⟨9⟩), root, []⟩) rfl
    unfold deserialize
    rw [read]
    refine (congrArg Prod.fst found).trans ?_
    exact Contents.graph_eq_ok_iff.mpr ⟨rfl, has⟩
  obtain ⟨bytes, serialized, same⟩ :=
    serialize_of_deserialize (unpackable_container small fun _ => lossless) loaded {}
  exact ⟨bytes, packed, loaded, serialized, same nofun⟩

end GraphSnapshot.Snapshot
