import GraphSnapshot.Payload.Decoding
import GraphSnapshot.Proofs.Outcome

/-! What writing gives. The bytes of a value by its kind, of entries one by one, and how many bytes
there are at least. -/
namespace GraphSnapshot.Payload

theorem encodeArray_eq_ok_iff {a : NumericArray} {bytes : List UInt8} :
    encodeArray a = .ok bytes ↔
      a.shape.rank ≤ 255 ∧ a.elementType.tag :: UInt8.ofNat a.shape.rank ::
        (a.shape.dims.flatMap Bytes.ofWord ++ Bytes.ofLength a.bytes.length ++ a.bytes) = bytes := by
  rw [encodeArray]
  split
  · next small => simp only [Except.ok.injEq, small, true_and]
  · next large => simp only [reduceCtorEq, large, false_and]

theorem encodeEntries_cons_eq_ok_iff {room : Nat} {key : String} {value : Value}
    {rest : List (String × Value)} {bytes : List UInt8} :
    encodeEntries room ((key, value) :: rest) = .ok bytes ↔
      ∃ front back, encodeValue room value = .ok front ∧ encodeEntries room rest = .ok back ∧
        encodeString key ++ front ++ back = bytes := by
  simp only [encodeEntries, bind_eq_ok_iff, pure_eq_ok_iff]
  constructor
  · intro ⟨front, first, back, others, same⟩
    exact ⟨front, back, first, others, same⟩
  · intro ⟨front, back, first, others, same⟩
    exact ⟨front, first, back, others, same⟩

theorem encodeValue_array_eq_ok_iff {room : Nat} {a : NumericArray} {bytes : List UInt8} :
    encodeValue room (.array a) = .ok bytes ↔
      ∃ body, encodeArray a = .ok body ∧ kindTag .array :: body = bytes := by
  simp only [encodeValue, bind_eq_ok_iff, pure_eq_ok_iff]

theorem encodeValue_record_eq_ok_iff {room : Nat} {entries : Record} {bytes : List UInt8} :
    encodeValue room (.record entries) = .ok bytes ↔
      ∃ inner body, room = inner + 1 ∧ encodeEntries inner entries = .ok body ∧
        kindTag .record :: (Bytes.ofLength entries.length ++ body) = bytes := by
  cases room with
  | zero => simp only [encodeValue, reduceCtorEq, Nat.right_eq_add, Nat.add_eq_zero_iff,
      Nat.one_ne_zero, and_false, false_and, exists_false]
  | succ room =>
    simp only [encodeValue, bind_eq_ok_iff, pure_eq_ok_iff, Nat.add_right_cancel_iff]
    constructor
    · intro ⟨body, entries, same⟩
      exact ⟨room, body, rfl, entries, same⟩
    · rintro ⟨_, body, rfl, entries, same⟩
      exact ⟨body, entries, same⟩

theorem encode_eq_ok_iff {record : Record} {bytes : List UInt8} :
    encode record = .ok bytes ↔
      ∃ body, encodeEntries maxDepth record = .ok body ∧
        Bytes.ofLength record.length ++ body = bytes := by
  simp only [encode, bind_eq_ok_iff, pure_eq_ok_iff]

theorem length_encodeString (s : String) :
    (encodeString s).length = 8 + (Text.utf8 s).length := by
  rw [encodeString, List.length_append, Bytes.length_ofLength]

theorem two_le_length_encodeValue {room : Nat} {v : Value} {bytes : List UInt8}
    (h : encodeValue room v = .ok bytes) : 2 ≤ bytes.length := by
  cases v with
  | bool b | int i | float bits =>
    simp only [encodeValue, Except.ok.injEq] at h
    simp [← h]
  | string s =>
    simp only [encodeValue, Except.ok.injEq] at h
    simp only [← h, List.length_cons, length_encodeString]
    omega
  | array a =>
    obtain ⟨body, array, rfl⟩ := encodeValue_array_eq_ok_iff.mp h
    obtain ⟨_, rfl⟩ := encodeArray_eq_ok_iff.mp array
    simp only [List.length_cons]
    omega
  | record entries =>
    obtain ⟨inner, body, _, _, rfl⟩ := encodeValue_record_eq_ok_iff.mp h
    simp only [List.length_cons, List.length_append, Bytes.length_ofLength]
    omega

/-- So no check for `minEntrySize` bytes an entry refuses what was written. -/
theorem minEntrySize_mul_le {room : Nat} {entries : Record} {bytes : List UInt8}
    (h : encodeEntries room entries = .ok bytes) :
    entries.length * minEntrySize ≤ bytes.length := by
  induction entries generalizing bytes with
  | nil => rw [List.length_nil, Nat.zero_mul]; exact Nat.zero_le _
  | cons entry rest ih =>
    obtain ⟨front, back, first, others, rfl⟩ := encodeEntries_cons_eq_ok_iff.mp h
    have value := two_le_length_encodeValue first
    have remaining := ih others
    simp only [List.length_append, List.length_cons, length_encodeString, minEntrySize] at remaining ⊢
    omega

/-- The bytes of each value stand among those of the entries. -/
theorem exists_encodeValue_of_mem {room : Nat} {entries : Record} {bytes : List UInt8}
    (h : encodeEntries room entries = .ok bytes) {key : String} {v : Value}
    (member : (key, v) ∈ entries) :
    ∃ part, encodeValue room v = .ok part ∧ part.length ≤ bytes.length := by
  induction entries generalizing bytes with
  | nil => cases member
  | cons entry rest ih =>
    obtain ⟨front, back, first, others, rfl⟩ := encodeEntries_cons_eq_ok_iff.mp h
    simp only [List.length_append]
    rcases List.mem_cons.mp member with same | later
    · cases same
      exact ⟨front, first, by omega⟩
    · obtain ⟨part, encoded, shorter⟩ := ih others later
      exact ⟨part, encoded, by omega⟩

theorem length_bytes_le_of_encodeValue {room : Nat} {a : NumericArray} {bytes : List UInt8}
    (h : encodeValue room (.array a) = .ok bytes) : a.bytes.length ≤ bytes.length := by
  obtain ⟨body, array, rfl⟩ := encodeValue_array_eq_ok_iff.mp h
  obtain ⟨_, rfl⟩ := encodeArray_eq_ok_iff.mp array
  simp only [List.length_cons, List.length_append]
  omega

theorem encodeValue_eq_kindTag_cons {room : Nat} {v : Value} {bytes : List UInt8}
    (h : encodeValue room v = .ok bytes) : ∃ body, bytes = kindTag v.kind :: body := by
  cases v with
  | bool b | int i | float bits | string s => exact ⟨_, (Except.ok.inj h).symm⟩
  | array a =>
    obtain ⟨body, _, rfl⟩ := encodeValue_array_eq_ok_iff.mp h
    exact ⟨body, rfl⟩
  | record entries =>
    obtain ⟨_, body, _, _, rfl⟩ := encodeValue_record_eq_ok_iff.mp h
    exact ⟨_, rfl⟩

end GraphSnapshot.Payload
