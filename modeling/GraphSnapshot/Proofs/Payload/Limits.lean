import GraphSnapshot.Proofs.Payload.Spelling

/-! What can be written. Encoding refuses a record exactly if some record in it lies too deep or some
array in it has too many dimensions, and what takes less than a word of bytes can be read again. -/
namespace GraphSnapshot

/-- A value lies in a record, so many levels down. The entries of the record are one level down. -/
inductive Record.Holds : Record → Nat → Value → Prop
  | entry {record : Record} {key : String} {v : Value} : (key, v) ∈ record → Holds record 1 v
  | inside {record inner : Record} {key : String} {depth : Nat} {v : Value} :
      (key, .record inner) ∈ record → Holds inner depth v → Holds record (depth + 1) v

/-- Records lie at most `room` levels down, and the rank of every array fits into a byte. -/
structure Record.Encodable (record : Record) (room : Nat) : Prop where
  depth_le : ∀ depth inner, record.Holds depth (.record inner) → depth ≤ room
  rank_le : ∀ depth a, record.Holds depth (.array a) → a.shape.rank ≤ 255

def Value.Encodable (v : Value) (room : Nat) : Prop :=
  (∀ a, v = .array a → a.shape.rank ≤ 255) ∧
    ∀ inner, v = .record inner → ∃ below, room = below + 1 ∧ Record.Encodable inner below

theorem Value.encodable_array_iff {a : NumericArray} {room : Nat} :
    (Value.array a).Encodable room ↔ a.shape.rank ≤ 255 := by
  constructor
  · intro ⟨rank, _⟩
    exact rank a rfl
  · intro rank
    refine ⟨?_, nofun⟩
    intro _ same
    exact Value.array.inj same ▸ rank

theorem Value.encodable_record_iff {inner : Record} {room : Nat} :
    (Value.record inner).Encodable (room + 1) ↔ inner.Encodable room := by
  constructor
  · intro ⟨_, depth⟩
    obtain ⟨below, same, encodable⟩ := depth inner rfl
    exact Nat.succ.inj same ▸ encodable
  · intro encodable
    refine ⟨nofun, ?_⟩
    intro _ same
    exact ⟨room, rfl, Value.record.inj same ▸ encodable⟩

theorem Record.encodable_iff {record : Record} {room : Nat} :
    record.Encodable room ↔ ∀ key v, (key, v) ∈ record → v.Encodable room := by
  constructor
  · intro ⟨depth, rank⟩ key v member
    refine ⟨?_, ?_⟩
    · rintro a rfl
      exact rank 1 a (.entry member)
    · rintro inner rfl
      have direct := depth 1 inner (.entry member)
      refine ⟨room - 1, by omega, ?_, ?_⟩
      · intro d deeper held
        have := depth (d + 1) deeper (.inside member held)
        omega
      · intro d a held
        exact rank (d + 1) a (.inside member held)
  · intro h
    refine ⟨?_, ?_⟩
    · intro d deeper held
      cases held with
      | entry member =>
        obtain ⟨below, rfl, _⟩ := (h _ _ member).2 deeper rfl
        omega
      | inside member held =>
        obtain ⟨below, rfl, inner⟩ := (h _ _ member).2 _ rfl
        have := inner.depth_le _ _ held
        omega
    · intro d a held
      cases held with
      | entry member => exact (h _ _ member).1 a rfl
      | inside member held =>
        obtain ⟨below, rfl, inner⟩ := (h _ _ member).2 _ rfl
        exact inner.rank_le _ _ held

namespace Payload

theorem exists_encodeEntries_iff_forall {room : Nat} {entries : Record} :
    (∃ bytes, encodeEntries room entries = .ok bytes) ↔
      ∀ key v, (key, v) ∈ entries → ∃ bytes, encodeValue room v = .ok bytes := by
  induction entries with
  | nil => exact ⟨fun _ _ _ => nofun, fun _ => ⟨[], rfl⟩⟩
  | cons entry rest ih =>
    obtain ⟨key, v⟩ := entry
    simp only [encodeEntries_cons_eq_ok_iff]
    constructor
    · intro ⟨_, front, back, first, others, _⟩ key' v' member
      rcases List.mem_cons.mp member with same | later
      · obtain ⟨rfl, rfl⟩ := Prod.mk.inj same
        exact ⟨front, first⟩
      · exact ih.mp ⟨back, others⟩ key' v' later
    · intro h
      obtain ⟨front, first⟩ := h key v List.mem_cons_self
      obtain ⟨back, others⟩ := ih.mpr fun key' v' member => h key' v' (List.mem_cons_of_mem _ member)
      exact ⟨_, front, back, first, others, rfl⟩

theorem exists_encodeValue_iff {room : Nat} {v : Value}
    (records : ∀ below, room = below + 1 → ∀ inner : Record,
      (∃ bytes, encodeEntries below inner = .ok bytes) ↔ inner.Encodable below) :
    (∃ bytes, encodeValue room v = .ok bytes) ↔ v.Encodable room := by
  cases v with
  | bool b | int i | float bits | string s => exact ⟨fun _ => ⟨nofun, nofun⟩, fun _ => ⟨_, rfl⟩⟩
  | array a =>
    constructor
    · intro ⟨bytes, encoded⟩
      obtain ⟨body, array, _⟩ := encodeValue_array_eq_ok_iff.mp encoded
      refine ⟨?_, nofun⟩
      rintro _ ⟨rfl⟩
      exact (encodeArray_eq_ok_iff.mp array).1
    · intro ⟨rank, _⟩
      exact ⟨_, encodeValue_array_eq_ok_iff.mpr
        ⟨_, encodeArray_eq_ok_iff.mpr ⟨rank a rfl, rfl⟩, rfl⟩⟩
  | record entries =>
    constructor
    · intro ⟨bytes, encoded⟩
      obtain ⟨below, body, same, inside, _⟩ := encodeValue_record_eq_ok_iff.mp encoded
      refine ⟨nofun, ?_⟩
      rintro _ ⟨rfl⟩
      exact ⟨below, same, (records below same entries).mp ⟨body, inside⟩⟩
    · intro ⟨_, depth⟩
      obtain ⟨below, same, encodable⟩ := depth entries rfl
      obtain ⟨body, inside⟩ := (records below same entries).mpr encodable
      exact ⟨_, encodeValue_record_eq_ok_iff.mpr ⟨below, body, same, inside, rfl⟩⟩

/-- Encoding succeeds exactly if nothing lies too deep and no array has too many dimensions. -/
theorem exists_encodeEntries_iff {room : Nat} {entries : Record} :
    (∃ bytes, encodeEntries room entries = .ok bytes) ↔ entries.Encodable room := by
  -- Entries of one level are done by induction on the list; the room counts the levels.
  have step (room : Nat) (entries : Record)
      (records : ∀ below, room = below + 1 → ∀ inner : Record,
        (∃ bytes, encodeEntries below inner = .ok bytes) ↔ inner.Encodable below) :
      (∃ bytes, encodeEntries room entries = .ok bytes) ↔ entries.Encodable room := by
    rw [exists_encodeEntries_iff_forall, Record.encodable_iff]
    simp only [exists_encodeValue_iff records]
  induction room generalizing entries with
  | zero => exact step 0 entries nofun
  | succ room ih =>
    apply step
    rintro _ ⟨rfl⟩ inner
    exact ih

theorem exists_encode_iff {record : Record} :
    (∃ bytes, encode record = .ok bytes) ↔ record.Encodable maxDepth := by
  rw [← exists_encodeEntries_iff]
  simp only [encode_eq_ok_iff]
  constructor
  · intro ⟨_, body, encoded, _⟩
    exact ⟨body, encoded⟩
  · intro ⟨body, encoded⟩
    exact ⟨_, body, encoded, rfl⟩

/-- The bytes of everything that lies in a record stand among those of its entries. -/
theorem exists_encodeValue_of_holds {record : Record} {depth : Nat} {v : Value}
    (held : record.Holds depth v) {room : Nat} {bytes : List UInt8}
    (h : encodeEntries room record = .ok bytes) :
    ∃ below part, encodeValue below v = .ok part ∧ part.length ≤ bytes.length := by
  induction held generalizing room bytes with
  | entry member => exact ⟨room, exists_encodeValue_of_mem h member⟩
  | inside member held ih =>
    obtain ⟨part, encoded, shorter⟩ := exists_encodeValue_of_mem h member
    obtain ⟨_, body, _, inner, rfl⟩ := encodeValue_record_eq_ok_iff.mp encoded
    obtain ⟨below, part, encoded, shorter'⟩ := ih inner
    rw [List.length_cons, List.length_append] at shorter
    exact ⟨below, part, encoded, by omega⟩

/-- An array takes no more bytes than a record in which it lies. -/
theorem length_bytes_le_of_holds {record : Record} {payload : List UInt8}
    (h : encode record = .ok payload) {depth : Nat} {a : NumericArray}
    (held : record.Holds depth (.array a)) : a.bytes.length ≤ payload.length := by
  obtain ⟨body, entries, rfl⟩ := encode_eq_ok_iff.mp h
  obtain ⟨below, part, encoded, shorter⟩ := exists_encodeValue_of_holds held entries
  have array := length_bytes_le_of_encodeValue encoded
  rw [List.length_append]
  omega

theorem wordedEntries_of_forall {room : Nat} {entries : Record} {bytes : List UInt8}
    (values : ∀ v bytes, encodeValue room v = .ok bytes → bytes.length < wordLimit → v.Worded)
    (h : encodeEntries room entries = .ok bytes) (small : bytes.length < wordLimit) :
    Value.WordedEntries entries := by
  induction entries generalizing bytes with
  | nil => trivial
  | cons entry rest ih =>
    obtain ⟨front, back, first, others, rfl⟩ := encodeEntries_cons_eq_ok_iff.mp h
    rw [List.length_append, List.length_append, length_encodeString] at small
    exact ⟨by omega, values _ front first (by omega), ih others (by omega)⟩

theorem worded_of_forall {room : Nat} {v : Value} {bytes : List UInt8}
    (records : ∀ below, room = below + 1 → ∀ entries body,
      encodeEntries below entries = .ok body → body.length < wordLimit →
        Value.WordedEntries entries)
    (h : encodeValue room v = .ok bytes) (small : bytes.length < wordLimit) : v.Worded := by
  cases v with
  | bool b | int i | float bits | array a => trivial
  | string s =>
    cases h
    rw [List.length_cons, length_encodeString] at small
    exact (by omega : (Text.utf8 s).length < wordLimit)
  | record entries =>
    obtain ⟨below, body, same, inside, rfl⟩ := encodeValue_record_eq_ok_iff.mp h
    rw [List.length_cons, List.length_append, Bytes.length_ofLength] at small
    have fewer := minEntrySize_mul_le inside
    rw [minEntrySize] at fewer
    exact ⟨by omega, records below same entries body inside (by omega)⟩

theorem wordedEntries_of_length_lt {room : Nat} {entries : Record} {bytes : List UInt8}
    (h : encodeEntries room entries = .ok bytes) (small : bytes.length < wordLimit) :
    Value.WordedEntries entries := by
  induction room generalizing entries bytes with
  | zero =>
    apply wordedEntries_of_forall _ h small
    intro v bytes
    exact worded_of_forall nofun
  | succ room ih =>
    apply wordedEntries_of_forall _ h small
    intro v bytes
    apply worded_of_forall
    rintro _ ⟨rfl⟩ entries body inside
    exact ih inside

/-- What is written in less than a word of bytes has nothing in it that is longer than a word. -/
theorem worded_of_encode {record : Record} {payload : List UInt8} (h : encode record = .ok payload)
    (small : payload.length < wordLimit) : (Value.record record).Worded := by
  obtain ⟨body, encoded, rfl⟩ := encode_eq_ok_iff.mp h
  rw [List.length_append, Bytes.length_ofLength] at small
  have entries := minEntrySize_mul_le encoded
  simp only [minEntrySize] at entries
  exact ⟨by omega, wordedEntries_of_length_lt encoded (by omega)⟩

/-- What is well-formed and written in less than a word of bytes can be read again. -/
theorem decode_of_encode {record : Record} {payload : List UInt8}
    (well : (Value.record record).WellFormed) (h : encode record = .ok payload)
    (small : payload.length < wordLimit) : decode payload = .ok record :=
  decode_eq_ok_iff.mpr ⟨⟨well, worded_of_encode h small⟩, h⟩

end Payload
end GraphSnapshot
