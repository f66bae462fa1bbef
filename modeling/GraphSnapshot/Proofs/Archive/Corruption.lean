import GraphSnapshot.Proofs.Archive.RoundTrip
import GraphSnapshot.Proofs.Checksum

/-! Changed bytes. The header is checked field by field and the checksum covers what is stored behind
it, so a single byte can be changed unnoticed only where the header says whether that is packed. -/
namespace GraphSnapshot.Archive

theorem not_set_stored {header header' : Header} {stored stored' : List UInt8} {i : Nat} {b : UInt8}
    (checksum : header.checksum = Crc32.ofBytes stored)
    (checksum' : header'.checksum = Crc32.ofBytes stored')
    (changed : stored.set i b ≠ stored)
    (spelled : header.toBytes ++ stored.set i b = header'.toBytes ++ stored') : False := by
  have lengths : header.toBytes.length = header'.toBytes.length := by
    rw [Header.length_toBytes, Header.length_toBytes]
  obtain ⟨fields, same⟩ := List.append_inj spelled lengths
  obtain rfl := Header.toBytes_injective fields
  apply changed
  apply Crc32.set_eq_of_ofBytes_eq
  rw [same, ← checksum', checksum]

theorem eq_forPayload_not {header : Header} {stored : List UInt8} {compressed : Bool} {i : Nat}
    {b : UInt8} (version : header.formatVersion = Header.currentVersion)
    (length : header.payloadLength.toNat = stored.length)
    (checksum : header.checksum = Crc32.ofBytes stored)
    (changed : (Header.forPayload stored compressed).toBytes.set i b ≠
      (Header.forPayload stored compressed).toBytes)
    (spelled : (Header.forPayload stored compressed).toBytes.set i b = header.toBytes) :
    header = .forPayload stored (!compressed) := by
  -- Version, length and checksum are determined, so only the flag is left to be changed.
  have fields : header = .forPayload stored header.compressed := by
    rw [Header.forPayload, ← version, ← length, UInt64.ofNat_toNat, ← checksum]
  by_cases kept : header.compressed = compressed
  · rw [kept] at fields
    exact absurd (spelled.trans (by rw [fields])) changed
  · rw [fields, Bool.eq_not.mpr kept]

/-- Whatever byte is changed, the bytes can be read only if the change says of the stored payload
that it is packed where it is not, or the other way round. -/
theorem flag_of_ofBytes_set [Zlib] {stored : List UInt8} {compressed : Bool} {i : Nat} {b : UInt8}
    {a : Archive}
    (changed : ((Header.forPayload stored compressed).toBytes ++ stored).set i b ≠
      (Header.forPayload stored compressed).toBytes ++ stored)
    (h : ofBytes (((Header.forPayload stored compressed).toBytes ++ stored).set i b) = .ok a) :
    ∃ payload, Payload.decode payload = .ok a.root ∧
      if compressed then stored = payload else Packed.unpack stored = .ok payload := by
  obtain ⟨header, stored', payload, _, _, _, spelled, version, length, content, decoded⟩ :=
    exists_stored_of_ofBytes h
  obtain ⟨checksum, unpacked⟩ := payloadOf_eq_ok_iff.mp content
  have size := Header.length_toBytes (Header.forPayload stored compressed)
  -- A change in the header leaves what is stored, and a change behind it leaves the header.
  by_cases front : i < (Header.forPayload stored compressed).toBytes.length
  · rw [List.set_append_left i b front] at spelled changed
    have lengths : ((Header.forPayload stored compressed).toBytes.set i b).length =
        header.toBytes.length := by
      rw [List.length_set, Header.length_toBytes, Header.length_toBytes]
    obtain ⟨fields, rfl⟩ := List.append_inj spelled lengths
    have flipped := eq_forPayload_not version length checksum.symm
      (fun kept => changed (by rw [kept])) fields
    refine ⟨payload, decoded, ?_⟩
    rw [flipped] at unpacked
    cases compressed with
    | false => exact unpacked
    | true => exact unpacked
  · rw [List.set_append_right i b (Nat.not_lt.mp front)] at spelled changed
    exact (not_set_stored rfl checksum.symm (fun kept => changed (by rw [kept])) spelled).elim

/-- What is packed is too short to be read as a payload itself, since it states the length of the
content where a payload states its number of entries. -/
theorem decode_ne_ok_of_pack [Zlib] {data packed : List UInt8} {level : Int32}
    (small : data.length < wordLimit) (h : Packed.pack data level = some packed)
    (record : Record) : Payload.decode packed ≠ .ok record := by
  intro decoded
  obtain ⟨rfl, shorter⟩ := Packed.exists_stream_of_pack h
  obtain ⟨⟨_, count, _⟩, encoded⟩ := Payload.decode_eq_ok_iff.mp decoded
  obtain ⟨body, inside, spelled⟩ := Payload.encode_eq_ok_iff.mp encoded
  have lengths : (Bytes.ofLength record.length).length = (Bytes.ofLength data.length).length := by
    rw [Bytes.length_ofLength, Bytes.length_ofLength]
  obtain ⟨stated, rfl⟩ := List.append_inj spelled lengths
  have same : record.length = data.length := by
    rw [← Bytes.toNat_ofLength count, stated, Bytes.toNat_ofLength small]
  have entries := Payload.minEntrySize_mul_le inside
  rw [Payload.minEntrySize] at entries
  omega

end GraphSnapshot.Archive
