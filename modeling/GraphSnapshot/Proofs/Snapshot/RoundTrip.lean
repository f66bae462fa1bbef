import GraphSnapshot.Proofs.Snapshot.Loading
import GraphSnapshot.Proofs.Snapshot.Saving

/-! Graphs and their bytes. Every graph that can be built is found again in the bytes it is serialized
to. -/
namespace GraphSnapshot.Snapshot

/-- The bytes that a graph takes without packing are fewer than a word counts, like everything in
memory. -/
def Addressable [Zlib] (g : Graph) : Prop :=
  ∀ plain, serialize g {} = .ok plain → plain.length < wordLimit

theorem addressable_iff [Zlib] {g : Graph} : Addressable g ↔ Archive.Addressable (entries g) := by
  have length (payload : List UInt8) :
      (Archive.container payload {}).length = payload.length + Header.size := by
    rw [Archive.container, Archive.storedForm_of_not_compresses rfl, List.length_append,
      Header.length_toBytes, Nat.add_comm]
  constructor
  · intro small payload encoded
    rw [← length]
    exact small _ (serialize_eq_ok_iff.mpr ⟨payload, encoded, rfl⟩)
  · intro small plain h
    obtain ⟨payload, encoded, rfl⟩ := serialize_eq_ok_iff.mp h
    rw [length]
    exact small payload encoded

theorem ofBytes_serialize [Zlib] {g : Graph} (valid : g.Valid) (addressable : Addressable g)
    {options : WriteOptions} (lossless : options.compresses = true → Zlib.Lossless)
    {bytes : List UInt8} (h : serialize g options = .ok bytes) :
    ∃ header, Archive.ofBytes bytes = .ok ⟨.reading header, entries g, []⟩ := by
  obtain ⟨payload, encoded, rfl⟩ := serialize_eq_ok_iff.mp h
  have small := addressable_iff.mp addressable payload encoded
  have word : payload.length < wordLimit := Nat.lt_of_le_of_lt (Nat.le_add_right _ _) small
  have well := wellFormed_entries_of_encode valid encoded word fun _ _ member => ⟨1, .entry member⟩
  exact ⟨_, Archive.ofBytes_container options lossless well encoded small⟩

theorem deserialize_of_serialize [Zlib] {g : Graph} (valid : g.Valid)
    (addressable : Addressable g) {options : WriteOptions}
    (lossless : options.compresses = true → Zlib.Lossless) {bytes : List UInt8}
    (h : serialize g options = .ok bytes) :
    deserialize bytes = .ok g := by
  obtain ⟨header, read⟩ := ofBytes_serialize valid addressable lossless h
  have loaded := perform_load (a := ⟨.reading header, entries g, []⟩) valid.checked rfl
    (by decide : 0 < 64) (get?_entries g)
  unfold deserialize
  rw [read]
  exact congrArg Prod.fst loaded

/-- A graph has bytes exactly if no column of its tables has more than 255 dimensions, and its bytes
are read as the same graph, unless a compressor is asked for that loses something. -/
theorem serialize_roundTrip [Zlib] {g : Graph} (built : g.Built) (options : WriteOptions) :
    ((∃ bytes, serialize g options = .ok bytes) ↔
      ∀ table, g.nodeTable = some table ∨ g.edgeTable = some table →
        ∀ column ∈ table.columns, column.2.shape.rank ≤ 255) ∧
      ((options.compresses = true → Zlib.Lossless) → ∀ bytes, serialize g options = .ok bytes →
        Addressable g → deserialize bytes = .ok g) := by
  refine ⟨?_, ?_⟩
  · rw [← encodable_entries_iff, serialize_eq, Archive.exists_toBytes_iff]
    constructor
    · intro ⟨_, _, encodable⟩
      exact encodable
    · intro encodable
      exact ⟨rfl, rfl, encodable⟩
  · intro lossless bytes h addressable
    exact deserialize_of_serialize built.valid addressable lossless h

/-- Types without names, no names, columns with any bits, and a table without columns. -/
theorem serialize_roundTrip_typed :
    let table : Table := ⟨[("x", ⟨.float32, .vector 2, [1, 0, 0xc0, 0x7f, 0, 0, 0, 0x80]⟩),
      ("", ⟨.bool, ⟨[2, 1, 1]⟩, [0, 7]⟩)], by decide⟩
    let g : Graph := ⟨[0, 1, 2], [1, 0], none, some [0, 0], some .empty, none, some table,
      some .empty⟩
    let payload := (Payload.encode (entries g)).toOption.getD []
    let body : List UInt8 := [109, 143, 193, 14, 194, 32, 16, 68, 129, 210, 208, 104, 140, 30, 253,
      59, 162, 101, 107, 72, 12, 219, 192, 90, 245, 164, 159, 230, 167, 105, 117, 33, 74, 220, 203,
      4, 102, 222, 14, 24, 241, 25, 195, 58, 65, 76, 30, 131, 148, 124, 94, 178, 70, 60, 91, 28,
      134, 4, 148, 116, 39, 27, 190, 221, 138, 223, 201, 148, 170, 232, 30, 143, 214, 7, 231, 123,
      152, 233, 236, 110, 42, 42, 207, 138, 149, 174, 35, 216, 17, 162, 5, 119, 0, 45, 11, 167, 74,
      114, 205, 26, 208, 129, 125, 199, 9, 173, 119, 237, 95, 127, 71, 20, 253, 254, 68, 144, 90,
      85, 53, 95, 244, 162, 108, 239, 138, 247, 184, 189, 228, 158, 119, 105, 209, 212, 88, 253, 93,
      97, 114, 225, 252, 226, 239, 194, 28, 120, 2, 230, 241, 39, 120]
    let _ := Zlib.sample payload body
    ∃ bytes, serialize g ⟨9⟩ = .ok bytes ∧ bytes[6]? = some 1 ∧ deserialize bytes = .ok g := by
  intro table g payload body known
  have sized : ∀ column ∈ table.columns, column.2.Sized := by decide
  have bare : (Graph.bare [0, 1, 2] [1, 0]).Built :=
    .new (rfl : Graph.new [0, 1, 2] [1, 0] = _)
  have types := bare.withEdgeTypes (rfl : Graph.withEdgeTypes _ [0, 0] = _)
  have names := types.withNodeTypeIds (rfl : Graph.withNodeTypeIds _ .empty = _)
  have nodes := names.withNodeTable sized (rfl : Graph.withNodeTable _ table = _)
  have built : g.Built :=
    nodes.withEdgeTable Table.sized_empty (rfl : Graph.withEdgeTable _ .empty = _)
  have ranks : ∀ column ∈ table.columns, column.2.shape.rank ≤ 255 := by decide
  obtain ⟨exists_iff, found⟩ := serialize_roundTrip built ⟨9⟩
  have written : ∃ bytes, serialize g ⟨9⟩ = .ok bytes := by
    apply exists_iff.mpr
    intro other has
    rcases has with nodes | edges
    · cases nodes
      exact ranks
    · cases edges
      intro column member
      cases member
  have encoded : Payload.encode (entries g) = .ok payload := rfl
  have length : payload.length = 367 := by decide +kernel
  have addressable : Addressable g :=
    addressable_iff.mpr (Archive.addressable_of_encode encoded (by rw [length]; decide))
  obtain ⟨bytes, serialized⟩ := written
  refine ⟨bytes, serialized, ?_, found (fun _ => Zlib.sample_lossless _ _) bytes serialized addressable⟩
  obtain ⟨payload', encoded', rfl⟩ := serialize_eq_ok_iff.mp serialized
  obtain rfl := Except.ok.inj (encoded.symm.trans encoded')
  have shorter : body.length + 10 < payload.length := by
    rw [length]
    decide +kernel
  rw [Archive.getElem?_container, Archive.storedForm_sample ⟨9⟩ rfl shorter]
  rfl

end GraphSnapshot.Snapshot
