import GraphSnapshot.Archive.Storage
import GraphSnapshot.Proofs.Header
import GraphSnapshot.Proofs.Packed
import GraphSnapshot.Proofs.Payload.Limits

/-! Archives as bytes. Which archives have bytes, which bytes are an archive, and that an archive is
found again in its bytes. -/
namespace GraphSnapshot.Archive

def storedForm [Zlib] (payload : List UInt8) (options : WriteOptions) : List UInt8 × Bool :=
  match Packed.pack payload options.compressionLevel with
  | some packed => (packed, true)
  | none => (payload, false)

def storedHeader [Zlib] (payload : List UInt8) (options : WriteOptions) : Header :=
  .forPayload (storedForm payload options).1 (storedForm payload options).2

def container [Zlib] (payload : List UInt8) (options : WriteOptions) : List UInt8 :=
  (storedHeader payload options).toBytes ++ (storedForm payload options).1

/-- The byte that says whether the payload is packed. -/
theorem getElem?_container [Zlib] (payload : List UInt8) (options : WriteOptions) :
    (container payload options)[6]? = some (if (storedForm payload options).2 then 1 else 0) := rfl

/-- What a record is written as takes less than a word of bytes, like everything in memory. -/
def Addressable (record : Record) : Prop :=
  ∀ payload, Payload.encode record = .ok payload → payload.length + Header.size < wordLimit

theorem addressable_of_encode {record : Record} {payload : List UInt8}
    (encoded : Payload.encode record = .ok payload)
    (small : payload.length + Header.size < wordLimit) : Addressable record := by
  intro payload' encoded'
  rw [encoded] at encoded'
  exact Except.ok.inj encoded' ▸ small

theorem toBytes_eq_ok_iff [Zlib] {a : Archive} {bytes : List UInt8} :
    a.toBytes = .ok bytes ↔ ∃ options payload, a.mode = .writing options ∧ a.scopes = [] ∧
      Payload.encode a.root = .ok payload ∧ container payload options = bytes := by
  obtain ⟨mode, root, scopes⟩ := a
  cases mode with
  | reading header => exact ⟨nofun, fun ⟨_, _, writing, _⟩ => nomatch writing⟩
  | writing options =>
    simp only [toBytes, materialize, depth, bind_eq_ok_iff, check_eq_ok_iff, mapError_eq_ok_iff,
      pure_eq_ok_iff, ne_eq, Decidable.not_not, List.length_eq_zero_iff, Mode.writing.injEq]
    constructor
    · rintro ⟨⟨header, stored⟩, ⟨closed, payload, encoded, h⟩, rfl⟩
      refine ⟨options, payload, rfl, closed, encoded, ?_⟩
      rw [container, storedHeader, storedForm]
      cases packed : Packed.pack payload options.compressionLevel with
      | some _ | none =>
        rw [packed] at h
        cases h
        rfl
    · rintro ⟨_, payload, rfl, closed, encoded, rfl⟩
      rw [container, storedHeader, storedForm]
      cases packed : Packed.pack payload options.compressionLevel with
      | some _ | none => exact ⟨(_, _), ⟨closed, payload, encoded, by rw [packed]; rfl⟩, rfl⟩

theorem exists_toBytes_iff [Zlib] {a : Archive} :
    (∃ bytes, a.toBytes = .ok bytes) ↔
      a.isWriting = true ∧ a.depth = 0 ∧ a.root.Encodable Payload.maxDepth := by
  simp only [toBytes_eq_ok_iff, ← Payload.exists_encode_iff, depth, List.length_eq_zero_iff]
  constructor
  · rintro ⟨_, options, payload, writing, closed, encoded, rfl⟩
    exact ⟨by rw [isWriting, writing], closed, payload, encoded⟩
  · intro ⟨writing, closed, payload, encoded⟩
    cases mode : a.mode with
    | reading header =>
      rw [isWriting, mode] at writing
      cases writing
    | writing options => exact ⟨_, options, payload, rfl, closed, encoded, rfl⟩

theorem exists_violation_of_not_encodable [Zlib] {a : Archive} (writing : a.isWriting = true)
    (closed : a.depth = 0) (refused : ¬a.root.Encodable Payload.maxDepth) :
    ∃ violation, a.toBytes = .error (.violation violation) := by
  rw [← Payload.exists_encode_iff] at refused
  obtain ⟨mode, root, scopes⟩ := a
  obtain rfl := List.length_eq_zero_iff.mp closed
  cases mode with
  | reading header => cases writing
  | writing options =>
      cases encoded : Payload.encode root with
      | ok payload => exact absurd ⟨payload, encoded⟩ refused
      | error violation =>
          refine ⟨violation, ?_⟩
          simp only [toBytes, materialize, encoded]
          rfl

theorem payloadOf_eq_ok_iff [Zlib] {header : Header} {stored payload : List UInt8} :
    payloadOf header stored = .ok payload ↔ Crc32.ofBytes stored = header.checksum ∧
      (if header.compressed then Packed.unpack stored = .ok payload else stored = payload) := by
  simp only [payloadOf, check_eq_ok_iff, ne_eq, Decidable.not_not]
  refine and_congr_right fun _ => ?_
  split
  · rfl
  · exact pure_eq_ok_iff

theorem totalLength?_eq_some_iff {header : Header} {total : Nat} :
    header.totalLength? = some total ↔
      total < wordLimit ∧ header.payloadLength.toNat + Header.size = total := by
  simp only [Header.totalLength?, Option.ite_none_right_eq_some, Option.some.injEq]
  constructor
  · rintro ⟨small, rfl⟩
    exact ⟨small, rfl⟩
  · rintro ⟨small, rfl⟩
    exact ⟨small, rfl⟩

/-- The stored payload behind a header of the right length, and the record in it. -/
theorem ofBytes_append_eq_ok_iff [Zlib] {header : Header} {stored : List UInt8} {a : Archive}
    (version : header.formatVersion = Header.currentVersion) :
    ofBytes (header.toBytes ++ stored) = .ok a ↔ header.payloadLength.toNat = stored.length ∧
      stored.length + Header.size < wordLimit ∧
      ∃ payload root, payloadOf header stored = .ok payload ∧ Payload.decode payload = .ok root ∧
        a = ⟨.reading header, root, []⟩ := by
  have parsed := Header.parse_eq_ok_iff.mpr ⟨version, stored, rfl⟩
  have behind : (header.toBytes ++ stored).drop Header.size = stored :=
    List.drop_left' (Header.length_toBytes header)
  have long : (header.toBytes ++ stored).length = stored.length + Header.size := by
    rw [List.length_append, Header.length_toBytes, Nat.add_comm]
  simp only [ofBytes, parsed, bind_eq_ok_iff, Except.ok.injEq, exists_eq_left', behind, long]
  cases total : header.totalLength? with
  | none =>
    refine ⟨nofun, ?_⟩
    intro ⟨length, small, _⟩
    rw [← length] at small
    exact nomatch total.symm.trans (totalLength?_eq_some_iff.mpr ⟨small, rfl⟩)
  | some total' =>
    obtain ⟨small, rfl⟩ := totalLength?_eq_some_iff.mp total
    simp only [check_eq_ok_iff, bind_eq_ok_iff, mapError_eq_ok_iff, pure_eq_ok_iff]
    constructor
    · rintro ⟨enough, exact, payload, content, root, decoded, rfl⟩
      exact ⟨by omega, by omega, payload, root, content, decoded, rfl⟩
    · rintro ⟨length, _, payload, root, content, decoded, rfl⟩
      exact ⟨by omega, by omega, payload, content, root, decoded, rfl⟩

theorem exists_header_of_ofBytes [Zlib] {data : List UInt8} {a : Archive}
    (h : ofBytes data = .ok a) :
    ∃ (header : Header) (stored : List UInt8), data = header.toBytes ++ stored ∧
      header.formatVersion = Header.currentVersion := by
  rw [ofBytes] at h
  obtain ⟨header, parsed, _⟩ := bind_eq_ok_iff.mp h
  obtain ⟨version, stored, rfl⟩ := Header.parse_eq_ok_iff.mp parsed
  exact ⟨header, stored, rfl, version⟩

/-- A payload of less than a word of bytes is found again behind the header it was stored with, unless
the compressor loses it. -/
theorem payloadOf_storedForm [Zlib] {payload : List UInt8} (small : payload.length < wordLimit)
    {options : WriteOptions} (lossless : options.compresses = true → Zlib.Lossless) :
    payloadOf (storedHeader payload options) (storedForm payload options).1 = .ok payload := by
  rw [payloadOf_eq_ok_iff]
  refine ⟨rfl, ?_⟩
  rw [storedHeader, storedForm, Header.forPayload]
  cases packed : Packed.pack payload options.compressionLevel with
  | none => exact rfl
  | some stored =>
      have on : options.compresses = true := decide_eq_true (Packed.level_pos_of_pack packed)
      exact Packed.unpack_pack (lossless on) small packed

theorem storedForm_of_not_compresses [Zlib] {options : WriteOptions}
    (off : options.compresses = false) (payload : List UInt8) :
    storedForm payload options = (payload, false) := by
  rw [storedForm, Packed.pack_eq_none_of_level]
  exact Int32.not_lt.mp (of_decide_eq_false off)

theorem storedForm_sample {payload body : List UInt8} (options : WriteOptions)
    (on : options.compresses = true) (shorter : body.length + 10 < payload.length) :
    @storedForm (Zlib.sample payload body) payload options =
      (Bytes.ofLength payload.length ++ 0x78 :: 0xda :: body, true) := by
  unfold storedForm
  rw [Packed.pack_sample (of_decide_eq_true on) shorter]

theorem length_storedForm_le [Zlib] (payload : List UInt8) (options : WriteOptions) :
    (storedForm payload options).1.length ≤ payload.length := by
  rw [storedForm]
  cases packed : Packed.pack payload options.compressionLevel with
  | none => exact Nat.le_refl _
  | some stored => exact Nat.le_of_lt (Packed.length_lt_of_pack packed)

/-- A well-formed record is found again in the container it was written into. -/
theorem ofBytes_container [Zlib] {record : Record} {payload : List UInt8} (options : WriteOptions)
    (lossless : options.compresses = true → Zlib.Lossless)
    (well : (Value.record record).WellFormed) (encoded : Payload.encode record = .ok payload)
    (small : payload.length + Header.size < wordLimit) :
    ofBytes (container payload options) =
      .ok ⟨.reading (storedHeader payload options), record, []⟩ := by
  have shorter := length_storedForm_le payload options
  have fits : (storedForm payload options).1.length + Header.size < wordLimit := by omega
  have length : (storedHeader payload options).payloadLength.toNat =
      (storedForm payload options).1.length :=
    UInt64.toNat_ofNat_of_lt' (Nat.lt_of_le_of_lt (Nat.le_add_right _ _) fits)
  have word : payload.length < wordLimit := Nat.lt_of_le_of_lt (Nat.le_add_right _ _) small
  exact (ofBytes_append_eq_ok_iff rfl).mpr ⟨length, fits, payload, record,
    payloadOf_storedForm word lossless, Payload.decode_of_encode well encoded word, rfl⟩

end GraphSnapshot.Archive
