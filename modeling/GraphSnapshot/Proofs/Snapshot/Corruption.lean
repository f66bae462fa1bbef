import GraphSnapshot.Proofs.Archive.Corruption
import GraphSnapshot.Proofs.Snapshot.RoundTrip

/-! Changed bytes of stored graphs. No change of a single byte goes unnoticed, whether the graph is
packed or not. -/
namespace GraphSnapshot.Snapshot

/-- A payload starts with its number of entries and the length of the first key, which is seven. -/
theorem payload_eq_append {g : Graph} {payload : List UInt8}
    (encoded : Payload.encode (entries g) = .ok payload) :
    ∃ size rest, payload = size ++ 7 :: 0 :: rest ∧ size.length = 8 := by
  obtain ⟨body, inside, rfl⟩ := Payload.encode_eq_ok_iff.mp encoded
  have first : entries g =
      (Field.version.key, .int version) :: entriesOf g Field.all.tail := rfl
  rw [first] at inside
  obtain ⟨front, back, _, _, rfl⟩ := Payload.encodeEntries_cons_eq_ok_iff.mp inside
  exact ⟨_, _, rfl, Bytes.length_ofLength _⟩

theorem ofBytes_set_ne_ok [Zlib] (checks : Zlib.ChecksHeaders) {g : Graph}
    {options : WriteOptions} {bytes : List UInt8} (serialized : serialize g options = .ok bytes)
    (addressable : Addressable g) {i : Nat} {b : UInt8} (changed : bytes.set i b ≠ bytes)
    (a : Archive) :
    Archive.ofBytes (bytes.set i b) ≠ .ok a := by
  intro read
  obtain ⟨payload, encoded, rfl⟩ := serialize_eq_ok_iff.mp serialized
  obtain ⟨payload', decoded, flag⟩ := Archive.flag_of_ofBytes_set changed read
  cases packed : Packed.pack payload options.compressionLevel with
  | some stored =>
      have form : Archive.storedForm payload options = (stored, true) := by
        rw [Archive.storedForm, packed]
      rw [form, if_pos rfl] at flag
      subst flag
      have small := addressable_iff.mp addressable payload encoded
      have word : payload.length < wordLimit := Nat.lt_of_le_of_lt (Nat.le_add_right _ _) small
      exact Archive.decode_ne_ok_of_pack word packed _ decoded
  | none =>
      have form : Archive.storedForm payload options = (payload, false) := by
        rw [Archive.storedForm, packed]
      rw [form, if_neg Bool.false_ne_true] at flag
      obtain ⟨size, rest, rfl, eight⟩ := payload_eq_append encoded
      have header : Zlib.isHeader 7 0 = false := by decide
      exact Packed.unpack_ne_ok checks eight header flag

/-- Wherever one byte of a stored graph is changed, opening it fails, and so does all that opens it. Of
the compressor it is only asked that it reads nothing behind what is no header. -/
theorem serialize_set_detected [Zlib] (checks : Zlib.ChecksHeaders) {g : Graph}
    {options : WriteOptions} {bytes : List UInt8} (serialized : serialize g options = .ok bytes)
    (addressable : Addressable g) {i : Nat} (inside : i < bytes.length) {b : UInt8}
    (changed : b ≠ bytes[i]) :
    ∃ fault, Archive.ofBytes (bytes.set i b) = .error fault ∧
      deserialize (bytes.set i b) = .error fault ∧
      ∀ key, getValue (bytes.set i b) key = .error fault := by
  have different : bytes.set i b ≠ bytes := by
    intro same
    apply changed
    have here : (bytes.set i b)[i]? = some b := List.getElem?_set_self inside
    rw [same, List.getElem?_eq_getElem inside] at here
    exact (Option.some.inj here).symm
  cases opened : Archive.ofBytes (bytes.set i b) with
  | ok a => exact absurd opened (ofBytes_set_ne_ok checks serialized addressable different a)
  | error fault =>
      refine ⟨fault, rfl, ?_, ?_⟩
      · rw [deserialize, opened]
        rfl
      · intro key
        rw [getValue, opened]
        rfl

/-- The byte that says whether the payload is packed. -/
theorem serialize_set_detected_flag :
    let _ := Zlib.sample
    ∃ bytes fault, serialize .empty {} = .ok bytes ∧ bytes[6]? = some 0 ∧
      Archive.ofBytes (bytes.set 6 1) = .error fault := by
  intro known
  obtain ⟨payload, encoded, length⟩ :
      ∃ payload, Payload.encode (entries .empty) = .ok payload ∧ payload.length = 116 :=
    ⟨_, rfl, by decide +kernel⟩
  have addressable : Addressable .empty :=
    addressable_iff.mpr (Archive.addressable_of_encode encoded (by rw [length]; decide))
  have serialized : serialize .empty {} = .ok (Archive.container payload {}) :=
    serialize_eq_ok_iff.mpr ⟨payload, encoded, rfl⟩
  have flag : (Archive.container payload {})[6]? = some 0 := rfl
  obtain ⟨inside, zero⟩ := List.getElem?_eq_some_iff.mp flag
  have changed : (1 : UInt8) ≠ (Archive.container payload {})[6] := by
    rw [zero]
    decide
  obtain ⟨fault, refused, _⟩ := serialize_set_detected (Zlib.sample_checksHeaders _ _) serialized
    addressable inside changed
  exact ⟨_, fault, serialized, flag, refused⟩

end GraphSnapshot.Snapshot
