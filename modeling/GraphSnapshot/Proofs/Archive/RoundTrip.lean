import GraphSnapshot.Proofs.Archive.Adding

/-! Archives and their bytes. Which archives can be turned into bytes, that the bytes of an archive
give it back, and that an archive without packing has a single spelling. -/
namespace GraphSnapshot.Archive

/-- An archive has bytes exactly if it is written to its end, nothing lies deeper than 64 levels and
no array has more than 255 dimensions, and its bytes are read as the same entries. -/
theorem toBytes_roundTrip [Zlib] {a : Archive} (reachable : a.Reachable) :
    ((∃ bytes, a.toBytes = .ok bytes) ↔
      a.isWriting = true ∧ a.depth = 0 ∧
        (∀ depth inner, a.root.Holds depth (.record inner) → depth ≤ 64) ∧
        ∀ depth array, a.root.Holds depth (.array array) → array.shape.rank ≤ 255) ∧
      ((∀ options, a.mode = .writing options → options.compresses = true → Zlib.Lossless) →
        ∀ bytes, a.toBytes = .ok bytes → Addressable a.root →
          ∃ header, ofBytes bytes = .ok ⟨.reading header, a.root, []⟩) := by
  refine ⟨?_, ?_⟩
  · rw [exists_toBytes_iff]
    constructor
    · intro ⟨writing, closed, encodable⟩
      exact ⟨writing, closed, encodable.depth_le, encodable.rank_le⟩
    · intro ⟨writing, closed, depth, rank⟩
      exact ⟨writing, closed, depth, rank⟩
  · intro lossless bytes h addressable
    obtain ⟨options, payload, mode, _, encoded, rfl⟩ := toBytes_eq_ok_iff.mp h
    exact ⟨_, ofBytes_container options (lossless options mode) reachable.wellFormed.root encoded
      (addressable payload encoded)⟩

/-- Two levels of records, an empty key in front of a truth value, a float that is no number, and enough
zeros for the payload to be packed. -/
theorem toBytes_roundTrip_nested :
    let root : Record := [("nan", .float 0x7ff8000000000001),
      ("outer", .record [("", .bool true), ("inner", .record [])]),
      ("run", .array ⟨.uint8, .vector 40, List.replicate 40 0⟩)]
    let body : List UInt8 := [99, 102, 128, 0, 102, 40, 157, 151, 152, 199, 196, 8, 102, 253, 168,
      103, 133, 138, 229, 151, 150, 164, 22, 177, 50, 49, 160, 1, 70, 152, 124, 102, 94, 30, 80,
      158, 1, 205, 164, 162, 210, 60, 22, 70, 70, 13, 40, 79, 131, 129, 52, 0, 0, 119, 205, 8, 206]
    let payload := (Payload.encode root).toOption.getD []
    let _ := Zlib.sample payload body
    let a : Archive := ⟨.writing ⟨9⟩, root, []⟩
    ∃ bytes header, a.toBytes = .ok bytes ∧ bytes[6]? = some 1 ∧
      ofBytes bytes = .ok ⟨.reading header, root, []⟩ := by
  intro root body payload known a
  have run : (Value.array ⟨.uint8, .vector 40, List.replicate 40 0⟩).WellFormed :=
    (by decide : NumericArray.Sized _)
  have composed : Composed (do
      write "nan" (.float 0x7ff8000000000001)
      within "outer" (do
        write "" (.bool true)
        within "inner" (pure ()))
      write "run" (.array ⟨.uint8, .vector 40, List.replicate 40 0⟩)) :=
    .bind (.write "nan" trivial) fun _ =>
      .bind (.within "outer" (.bind (.write "" trivial) fun _ => .within "inner" (.pure ())))
        fun _ => .write "run" run
  have reachable : a.Reachable := (Reachable.writer ⟨9⟩).perform composed
  have encoded : Payload.encode root = .ok payload := rfl
  have length : payload.length = 152 := rfl
  have addressable := addressable_of_encode encoded (by rw [length]; decide)
  have written : a.toBytes = .ok (container payload ⟨9⟩) :=
    toBytes_eq_ok_iff.mpr ⟨⟨9⟩, payload, rfl, rfl, encoded, rfl⟩
  obtain ⟨_, found⟩ := toBytes_roundTrip reachable
  obtain ⟨header, read⟩ := found (fun _ _ _ => Zlib.sample_lossless _ _) _ written addressable
  have shorter : body.length + 10 < payload.length := by
    rw [length]
    decide
  have packed : (storedForm payload ⟨9⟩).2 = true := by
    rw [storedForm_sample ⟨9⟩ rfl shorter]
  refine ⟨_, header, written, ?_, read⟩
  rw [getElem?_container, packed]
  rfl

theorem exists_stored_of_ofBytes [Zlib] {data : List UInt8} {a : Archive} (h : ofBytes data = .ok a) :
    ∃ header stored payload, a = ⟨.reading header, a.root, []⟩ ∧
      Header.parse data = .ok header ∧ data.drop Header.size = stored ∧
      data = Header.toBytes header ++ stored ∧ header.formatVersion = Header.currentVersion ∧
      header.payloadLength.toNat = stored.length ∧ payloadOf header stored = .ok payload ∧
      Payload.decode payload = .ok a.root := by
  obtain ⟨header, stored, rfl, version⟩ := exists_header_of_ofBytes h
  obtain ⟨length, _, payload, root, content, decoded, rfl⟩ :=
    (ofBytes_append_eq_ok_iff version).mp h
  exact ⟨header, stored, payload, rfl, Header.parse_eq_ok_iff.mpr ⟨version, stored, rfl⟩,
    List.drop_left' (Header.length_toBytes header), rfl, version, length, content, decoded⟩

theorem eq_container_of_not_compressed [Zlib] {header : Header} {stored payload : List UInt8}
    (version : header.formatVersion = Header.currentVersion)
    (length : header.payloadLength.toNat = stored.length)
    (content : payloadOf header stored = .ok payload) (plain : header.compressed = false)
    {options : WriteOptions} (off : options.compresses = false) :
    container payload options = header.toBytes ++ stored := by
  rw [payloadOf_eq_ok_iff, plain] at content
  obtain ⟨checksum, rfl⟩ := content
  have same : header = .forPayload stored false := by
    rw [Header.forPayload, ← length, UInt64.ofNat_toNat, ← version, ← plain, checksum]
  rw [container, storedHeader, storedForm_of_not_compresses off, same]

theorem container_eq_of_ofBytes [Zlib] {data : List UInt8} {a : Archive} {header : Header}
    (h : ofBytes data = .ok a) (mode : a.mode = .reading header)
    (plain : header.compressed = false) :
    ∃ payload, Payload.encode a.root = .ok payload ∧
      ∀ options : WriteOptions, options.compresses = false → container payload options = data := by
  obtain ⟨header', stored, payload, same, _, _, rfl, version, length, content, decoded⟩ :=
    exists_stored_of_ofBytes h
  rw [same] at mode
  obtain rfl := Mode.reading.inj mode
  obtain ⟨_, encoded⟩ := Payload.decode_eq_ok_iff.mp decoded
  refine ⟨payload, encoded, ?_⟩
  intro options off
  exact eq_container_of_not_compressed version length content plain off

/-- Archives have one spelling. The payload in the bytes of an archive is the encoding of its
entries, and without packing the entries written in turn give the same bytes again, so no other
bytes without packing have these entries. -/
theorem ofBytes_canonical [Zlib] {data : List UInt8} {a : Archive} (h : ofBytes data = .ok a) :
    ∃ header payload, a.mode = .reading header ∧ Header.parse data = .ok header ∧
      payloadOf header (data.drop Header.size) = .ok payload ∧
      Payload.decode payload = .ok a.root ∧ Payload.encode a.root = .ok payload ∧
      (header.compressed = false →
        (∀ options : WriteOptions, options.compresses = false →
          ∃ written, (writer options).perform (a.root.forM fun entry => write entry.1 entry.2) =
            (.ok (), written) ∧ written.toBytes = .ok data) ∧
        ∀ data' a' header', ofBytes data' = .ok a' → a'.mode = .reading header' →
          header'.compressed = false → a'.root = a.root → data' = data) := by
  obtain ⟨header, stored, payload, same, parsed, rfl, _, _, _, content, decoded⟩ :=
    exists_stored_of_ofBytes h
  obtain ⟨⟨well, _⟩, encoded⟩ := Payload.decode_eq_ok_iff.mp decoded
  have mode : a.mode = .reading header := by rw [same]
  refine ⟨header, payload, mode, parsed, content, decoded, encoded, ?_⟩
  intro plain
  obtain ⟨payload', encoded', spelled⟩ := container_eq_of_ofBytes h mode plain
  refine ⟨?_, ?_⟩
  · intro options off
    have distinct := (Value.wellFormed_record_iff.mp well).1
    have written := perform_forM_write id (a := writer options) rfl distinct (fun _ _ => nofun)
    refine ⟨_, written, ?_⟩
    refine toBytes_eq_ok_iff.mpr ⟨options, payload', rfl, rfl, ?_, spelled options off⟩
    rw [← encoded']
    exact congrArg Payload.encode (List.map_id _)
  · intro data' a' header' h' mode' plain' entries
    obtain ⟨payload'', encoded'', spelled'⟩ := container_eq_of_ofBytes h' mode' plain'
    rw [entries, encoded'] at encoded''
    obtain rfl := Except.ok.inj encoded''
    rw [← spelled' {} rfl, spelled {} rfl]

theorem ofBytes_canonical_single :
    let _ := Zlib.sample
    ∃ data header, ofBytes data = .ok ⟨.reading header, [("k", .bool true)], []⟩ ∧
      ∃ written, (writer {}).perform (do write "k" (.bool true); pure ()) = (.ok (), written) ∧
        written.toBytes = .ok data := by
  intro known
  obtain ⟨payload, encoded, length⟩ :
      ∃ payload, Payload.encode [("k", .bool true)] = .ok payload ∧ payload.length = 19 :=
    ⟨_, rfl, rfl⟩
  have well : (Value.record [("k", .bool true)]).WellFormed :=
    Value.wellFormed_record_singleton (v := .bool true) trivial
  have read := ofBytes_container {} nofun well encoded (by rw [length]; decide)
  obtain ⟨header, _, mode, _, _, _, _, canonical⟩ := ofBytes_canonical read
  obtain rfl := Mode.reading.inj mode
  have plain : (storedHeader payload {}).compressed = false := by
    rw [storedHeader, storedForm_of_not_compresses rfl]
    rfl
  exact ⟨_, _, read, (canonical plain).1 {} rfl⟩

end GraphSnapshot.Archive
